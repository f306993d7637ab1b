/-
# Names without a body

A database refuses a name that is nothing but two quotes.  An expression has its names, its
key and its type from the reference that it is made of, and these are looked at in different
places:

| part of the reference | if it is empty |
| --- | --- |
| column, key | the text is no reference |
| type | the reference is refused; one that is left out is `text` |
| table | nothing happens |

So every token of an expression has a body (`Sql.Token.HasBody`) but the name of the table
(`FieldRef.hasBody_tokens`), and that has none exactly if the reference begins with its dot
(`FieldRef.table_eq_empty_iff`).
-/

import SqlFilter.Proofs.Rewriting

namespace SqlFilter

/-- A token has a body: what is quoted is not empty, and what is not quoted, as the type
of a cast, is a plain identifier. -/
def Sql.Token.HasBody : Token → Prop
  | .name ⟨body, true⟩ => body ≠ ""
  | .name ⟨word, false⟩ => Identifier.isPlain word = true
  | .text body => body ≠ ""
  | .castTo type => Identifier.isPlain type = true
  | _ => True

namespace FieldRef

/-- **Every token of an expression has a body** but the name of an empty table. -/
theorem hasBody_tokens {ref : FieldRef} (hcolumn : ref.column ≠ "") (hkey : ref.key ≠ "")
    (htype : ∀ type ∈ ref.type, Identifier.isPlain type = true) :
    ∀ t ∈ ref.tokens, t.HasBody ∨ ref.table = some "" ∧ t = .name ⟨"", true⟩ := by
  have hcolumnTokens : ∀ t ∈ ref.columnTokens,
      t.HasBody ∨ ref.table = some "" ∧ t = .name ⟨"", true⟩ := by
    rw [columnTokens]
    cases htable : ref.table with
    | none => exact List.forall_mem_singleton.2 (.inl hcolumn)
    | some table =>
      refine List.forall_mem_cons.2 ⟨?_, List.forall_mem_cons.2
        ⟨.inl trivial, List.forall_mem_singleton.2 (.inl hcolumn)⟩⟩
      by_cases hempty : table = ""
      · exact .inr ⟨congrArg some hempty, by rw [hempty]⟩
      · exact .inl hempty
  have hextraction : ∀ t ∈ ref.extractionTokens,
      t.HasBody ∨ ref.table = some "" ∧ t = .name ⟨"", true⟩ := by
    refine List.forall_mem_cons.2 ⟨.inl trivial, List.forall_mem_append.2 ⟨hcolumnTokens, ?_⟩⟩
    exact List.forall_mem_cons.2 ⟨.inl trivial, List.forall_mem_cons.2
      ⟨.inl hkey, List.forall_mem_singleton.2 (.inl trivial)⟩⟩
  have hword : ∀ word : String, Identifier.isPlain word = true →
      Sql.Token.HasBody (.name ⟨word, false⟩) ∧ Sql.Token.HasBody (.castTo word) :=
    fun _ h => ⟨h, h⟩
  rw [tokens]
  rcases hcast : ref.cast with _ | type
  · refine List.forall_mem_cons.2 ⟨.inl trivial, List.forall_mem_cons.2
      ⟨.inl trivial, List.forall_mem_append.2 ⟨hextraction, ?_⟩⟩⟩
    refine List.forall_mem_cons.2 ⟨.inl (hword "text" (by decide)).2, List.forall_mem_cons.2
      ⟨.inl trivial, List.forall_mem_cons.2 ⟨.inl (hword "DATE" (by decide)).1, ?_⟩⟩⟩
    exact List.forall_mem_singleton.2 (.inl trivial)
  · refine List.forall_mem_append.2 ⟨hextraction, List.forall_mem_singleton.2 (.inl ?_)⟩
    exact (hword type (isPlain_of_cast htype hcast)).2

/-- The name of the table is a token of the expression. -/
theorem table_mem_tokens {ref : FieldRef} {table : String} (h : ref.table = some table) :
    Sql.Token.name ⟨table, true⟩ ∈ ref.tokens := by
  have hmem : Sql.Token.name ⟨table, true⟩ ∈ ref.extractionTokens := by
    simp [extractionTokens, columnTokens, h]
  rw [tokens]
  rcases ref.cast with _ | type
  · exact List.mem_cons_of_mem _ (List.mem_cons_of_mem _ (List.mem_append_left _ hmem))
  · exact List.mem_append_left _ hmem

/-- A reference has an empty table exactly if its text begins with a dot. -/
theorem table_eq_empty_iff {raw : String} {ref : FieldRef} (h : parse raw = some ref) :
    ref.table = some "" ↔ raw.toList.head? = some '.' := by
  obtain ⟨hread, rfl⟩ := parse_eq_some_iff.1 h
  have hdots := hread.dots
  cases htable : ref.table with
  | none =>
    have hmarker : marker.toList = 'j' :: "son:".toList := rfl
    rw [toList_text_of_table_eq_none htable, hmarker]
    exact iff_of_false (by simp) (by simp)
  | some table =>
    rw [htable] at hdots
    rw [toList_text_of_table_eq_some htable, Option.some_inj, ← String.toList_eq_nil_iff]
    change '.' ∉ table.toList at hdots
    cases hchars : table.toList with
    | nil => simp
    | cons c cs =>
      have hc : c ≠ '.' := fun hc => hdots (by simp [hchars, hc])
      simp [hc]

end FieldRef

/-- **Everything in an expression has a body but an empty table.**  What Postgres rewrites
a reference to has the tokens of the reference.  The name of the column and the key are not
empty, and the types of the casts are plain identifiers; a name is empty only if it is that
of the table.  So all tokens have a body if and only if the text of the reference does not
begin with a dot. -/
theorem postgres_names_all_but_tables {n : Nat} {raw : String} {field : FieldExpr}
    (h : postgres.resolve n raw = .ok field) (hjson : field.isJson = true) :
    ∃ ref, FieldRef.parse raw = some ref ∧ Sql.tokens field.sql.toList = some ref.tokens ∧
      (∀ t ∈ ref.tokens, t.HasBody ∨ ref.table = some "" ∧ t = .name ⟨"", true⟩) ∧
      ((∀ t ∈ ref.tokens, t.HasBody) ↔ raw.toList.head? ≠ some '.') := by
  obtain ⟨-, rfl⟩ | ⟨ref, href, rfl, hplain⟩ := postgres_resolve_eq_ok h
  · cases hjson
  · obtain ⟨hread, -⟩ := FieldRef.parse_eq_some_iff.1 href
    have hbody := ref.hasBody_tokens hread.column_ne_empty hread.key_ne_empty hplain
    refine ⟨ref, href, tokens_jsonExpr hplain, hbody, ?_⟩
    rw [ne_eq, ← FieldRef.table_eq_empty_iff href]
    constructor
    · exact fun hall htable => hall _ (FieldRef.table_mem_tokens htable) rfl
    · exact fun htable t ht => (hbody t ht).resolve_right fun hempty => htable hempty.1

/-- A quote alone is a body: of the table, of the column and of the key. -/
theorem postgres_names_all_but_tables_quotes :
    postgres.resolve 4 "\".json:\".':date" =
        .ok ⟨"CAST((\"\"\"\".\"\"\"\"->'''')::text AS DATE)", true⟩ ∧
      ∃ ts, Sql.tokens "CAST((\"\"\"\".\"\"\"\"->'''')::text AS DATE)".toList = some ts ∧
        ∀ t ∈ ts, t.HasBody := by
  have hresolve : postgres.resolve 4 "\".json:\".':date" =
      .ok ⟨"CAST((\"\"\"\".\"\"\"\"->'''')::text AS DATE)", true⟩ := by rfl
  obtain ⟨ref, -, htokens, -, hall⟩ := postgres_names_all_but_tables hresolve rfl
  exact ⟨hresolve, ref.tokens, htokens, hall.2 (by decide)⟩

/-- **A table can be nameless.**  A dot in front of the marker makes a reference with an empty
table, and the expression has a name that is nothing but two quotes. -/
theorem nameless_table_is_quoted :
    postgres.resolve 0 ".json:c.k" = .ok ⟨"(\"\".\"c\"->'k')::text", true⟩ ∧
      ∃ ts, Sql.tokens "(\"\".\"c\"->'k')::text".toList = some ts ∧
        .name ⟨"", true⟩ ∈ ts ∧ ¬∀ t ∈ ts, t.HasBody := by
  have href : FieldRef.parse ".json:c.k" = some ⟨some "", "c", "k", none⟩ := by rfl
  have htokens : Sql.tokens (Postgres.jsonExpr ⟨some "", "c", "k", none⟩).toList =
      some (FieldRef.tokens ⟨some "", "c", "k", none⟩) :=
    tokens_jsonExpr fun type htype => nomatch htype
  have hmem : Sql.Token.name ⟨"", true⟩ ∈ FieldRef.tokens ⟨some "", "c", "k", none⟩ :=
    FieldRef.table_mem_tokens rfl
  exact ⟨by rfl, _, htokens, hmem, fun hall => hall _ hmem rfl⟩

end SqlFilter
