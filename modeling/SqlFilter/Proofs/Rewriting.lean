/-
# What Postgres makes of a reference

A reference becomes `([table.]column->key)::type`, or `CAST((…)::text AS DATE)` for a date.
The table, the column and the key can be any text, and stand between quotes.  So nothing
of them gets out: the expression consists of the tokens of this shape (`FieldRef.tokens`)
and no others, where a quoted token is the very text that was quoted
(`tokens_jsonExpr`).  The type is one word, because a reference whose type is no
plain identifier is refused.

As the tokens name all parts, two references have the same expression only if they are the
same key of the same column, cast alike (`FieldRef.tokens_inj`).
-/

import SqlFilter.Proofs.Prefixes
import SqlFilter.Proofs.Sql.Idioms

namespace SqlFilter

open Sql (Closes)

/-! ### Tokens of a text -/

namespace Sql

/-- The tokens of a text, if it is made of tokens and of blanks between them.  A quoted
text ends at its first quote that is not written twice, and its token is the text with
every quote written once. -/
def tokens : List Char → Option (List Token)
  | [] => some []
  | c :: cs =>
    if c.isWhitespace then tokens cs
    else
      match _h : token? c cs with
      | none => none
      | some (t, rest) => (tokens rest).map (t :: ·)
termination_by cs => cs.length
decreasing_by
  · exact Nat.lt_succ_self _
  · exact Nat.lt_succ_of_le (length_token? _h)

@[simp] theorem tokens_nil : tokens [] = some [] := by
  rw [tokens]

@[simp] theorem tokens_blank (cs : List Char) : tokens (' ' :: cs) = tokens cs := by
  rw [tokens, if_pos (by decide)]

/-- The first token of a text comes before the tokens of the rest. -/
theorem tokens_of_startsWith {text rest : List Char} {t : Token} (h : StartsWith text t rest) :
    tokens text = (tokens rest).map (t :: ·) := by
  obtain ⟨c, cs, rfl, hc, ht⟩ := h
  rw [tokens, hc]
  simp only [Bool.false_eq_true, ↓reduceIte]
  split
  · rename_i h
    cases ht.symm.trans h
  · rename_i h
    obtain ⟨rfl, rfl⟩ := Prod.mk.inj (Option.some.inj (ht.symm.trans h))
    rfl

/-- A sign is one token. -/
theorem tokens_sign {c : Char} {cs rest : List Char} {s : Sign} (hc : c.isWhitespace = false)
    (ht : token? c cs = some (.sign s, rest)) :
    tokens (c :: cs) = (tokens rest).map (.sign s :: ·) :=
  tokens_of_startsWith ⟨c, cs, rfl, hc, ht⟩

end Sql

/-! ### Tokens of an expression -/

namespace FieldRef

/-- The tokens of `[table.]column`. -/
def columnTokens (ref : FieldRef) : List Sql.Token :=
  ref.table.toList.flatMap (fun table => [.name ⟨table, true⟩, .sign .dot]) ++
    [.name ⟨ref.column, true⟩]

/-- The tokens of `([table.]column->key)`. -/
def extractionTokens (ref : FieldRef) : List Sql.Token :=
  .sign .opening :: ref.columnTokens ++ [.sign .arrow, .text ref.key, .sign .closing]

/-- The tokens of `([table.]column->key)::type`, and for a date of
`CAST(([table.]column->key)::text AS DATE)`. -/
def tokens (ref : FieldRef) : List Sql.Token :=
  match ref.cast with
  | .date =>
    .keyword .cast :: .sign .opening :: ref.extractionTokens ++
      [.castTo "text", .keyword .as, .name ⟨"DATE", false⟩, .sign .closing]
  | .to type => ref.extractionTokens ++ [.castTo type]

theorem columnTokens_inj {ref ref' : FieldRef} {ts ts' : List Sql.Token}
    (h : ref.columnTokens ++ .sign .arrow :: ts = ref'.columnTokens ++ .sign .arrow :: ts') :
    ref.table = ref'.table ∧ ref.column = ref'.column ∧ ts = ts' := by
  cases ht : ref.table <;> cases ht' : ref'.table <;> simp_all [columnTokens]

/-- **The tokens of an expression name all parts of the reference.** -/
theorem tokens_inj {ref ref' : FieldRef} :
    ref.tokens = ref'.tokens ↔ ref.table = ref'.table ∧ ref.column = ref'.column ∧
      ref.key = ref'.key ∧ ref.cast = ref'.cast := by
  have hsource : ∀ ts ts', ref.extractionTokens ++ ts = ref'.extractionTokens ++ ts' ↔
      ref.table = ref'.table ∧ ref.column = ref'.column ∧ ref.key = ref'.key ∧ ts = ts' := by
    intro ts ts'
    constructor
    · intro h
      simp only [extractionTokens, List.cons_append, List.append_assoc, List.cons.injEq,
        true_and] at h
      obtain ⟨htable, hcolumn, h⟩ := columnTokens_inj h
      simp only [List.nil_append, List.cons.injEq, Sql.Token.text.injEq, true_and] at h
      exact ⟨htable, hcolumn, h⟩
    · rintro ⟨htable, hcolumn, hkey, rfl⟩
      rw [extractionTokens, extractionTokens, columnTokens, columnTokens, htable, hcolumn, hkey]
  rw [tokens, tokens]
  -- the tokens of a date begin with a word, and all others with a parenthesis
  rcases ref.cast with _ | type <;> rcases ref'.cast with _ | type'
  · simp [hsource]
  · simp [extractionTokens]
  · simp [extractionTokens]
  · simp [hsource]

end FieldRef

/-- The tokens of a column are its names. -/
theorem tokens_column (ref : FieldRef) {rest : List Char} (hrest : Closes rest) :
    Sql.tokens ((Postgres.column ref).toList ++ rest) =
      (Sql.tokens rest).map (ref.columnTokens ++ ·) := by
  rw [Postgres.column, FieldRef.columnTokens]
  cases ref.table with
  | none =>
    rw [Sql.tokens_of_startsWith (startsWith_quoteName ref.column hrest)]
    rfl
  | some table =>
    have hdot : Sql.tokens ('.' :: ((Postgres.quoteName ref.column).toList ++ rest)) =
        (Sql.tokens rest).map fun ts => .sign .dot :: .name ⟨ref.column, true⟩ :: ts := by
      rw [Sql.tokens_sign (by decide) rfl,
        Sql.tokens_of_startsWith (startsWith_quoteName ref.column hrest), Option.map_map]
      rfl
    have htable := startsWith_quoteName table (Sql.closes_cons (c := '.') (by decide)
      ((Postgres.quoteName ref.column).toList ++ rest))
    simp only [String.toList_append, List.append_assoc]
    rw [show ".".toList = ['.'] from rfl, List.singleton_append, Sql.tokens_of_startsWith htable,
      hdot, Option.map_map]
    rfl

/-- The tokens of an extraction are its signs, its names and its key. -/
theorem tokens_extraction (ref : FieldRef) (rest : List Char) :
    Sql.tokens ((Postgres.extraction ref).toList ++ rest) =
      (Sql.tokens rest).map (ref.extractionTokens ++ ·) := by
  have hkey := startsWith_quoteText ref.key (Sql.closes_cons (c := ')') (by decide) rest)
  have harrow : Sql.tokens ('-' :: '>' :: ((Postgres.quoteText ref.key).toList ++ ')' :: rest)) =
      (Sql.tokens rest).map fun ts => .sign .arrow :: .text ref.key :: .sign .closing :: ts := by
    rw [Sql.tokens_sign (by decide) rfl, Sql.tokens_of_startsWith hkey,
      Sql.tokens_sign (by decide) rfl, Option.map_map, Option.map_map]
    rfl
  have hcolumn := tokens_column ref (Sql.closes_cons (c := '-') (by decide)
    ('>' :: ((Postgres.quoteText ref.key).toList ++ ')' :: rest)))
  simp only [Postgres.extraction, String.toList_append, List.append_assoc]
  rw [show "(".toList = ['('] from rfl, show "->".toList = ['-', '>'] from rfl,
    show ")".toList = [')'] from rfl, List.singleton_append, Sql.tokens_sign (by decide) rfl]
  simp only [List.cons_append, List.nil_append]
  rw [hcolumn, harrow, Option.map_map, Option.map_map]
  congr 1
  funext ts
  simp [FieldRef.extractionTokens]

/-- **An expression has the tokens of its reference and no others**, whatever characters
are in the table, the column and the key. -/
theorem tokens_jsonExpr {ref : FieldRef}
    (h : ∀ type ∈ ref.type, Identifier.isPlain type = true) :
    Sql.tokens (Postgres.jsonExpr ref).toList = some ref.tokens := by
  rw [Postgres.jsonExpr, FieldRef.tokens]
  rcases hcast : ref.cast with _ | type
  · have hbehind : Sql.tokens "::text AS DATE)".toList =
        some [.castTo "text", .keyword .as, .name ⟨"DATE", false⟩, .sign .closing] := by
      show Sql.tokens (':' :: ':' :: ("text".toList ++
        (' ' :: ("AS".toList ++ (' ' :: ("DATE".toList ++ [')'])))))) = _
      rw [Sql.tokens_of_startsWith (Sql.startsWith_castTo (by decide) (Sql.closes_cons (by decide) _)),
        Sql.tokens_blank,
        Sql.tokens_of_startsWith (Sql.startsWith_word (by decide) (Sql.closes_cons (by decide) _)),
        Sql.tokens_blank,
        Sql.tokens_of_startsWith (Sql.startsWith_word (by decide) (Sql.closes_cons (by decide) _)),
        Sql.tokens_sign (by decide) rfl, Sql.tokens_nil]
      rfl
    simp only [String.toList_append, List.append_assoc]
    rw [show "CAST(".toList = "CAST".toList ++ ['('] from rfl, List.append_assoc,
      List.singleton_append,
      Sql.tokens_of_startsWith (Sql.startsWith_word (by decide) (Sql.closes_cons (by decide) _)),
      Sql.tokens_sign (by decide) rfl, tokens_extraction, hbehind]
    rfl
  · have hend : Sql.Closes [] := fun c hc => absurd hc (by simp)
    have htype := Sql.startsWith_castTo (FieldRef.isPlain_of_cast h hcast) hend
    simp only [String.toList_append, List.append_assoc]
    rw [tokens_extraction, show "::".toList = [':', ':'] from rfl, ← List.append_nil type.toList,
      List.cons_append, List.singleton_append, Sql.tokens_of_startsWith htype, Sql.tokens_nil]
    rfl

/-- **References are rewritten injectively, and nothing gets out of the quotes.**  A
reference is refused when its type is no plain identifier, and for no other reason.
Otherwise its expression has the tokens of its shape, with its own table, column and key in
them, and this is all that there is in the expression.  So two references have the same
expression when all their parts are the same, and the types but for what is cast alike. -/
theorem postgres_rewrites_exactly {raw : String} {ref : FieldRef}
    (href : FieldRef.parse raw = some ref) (n : Nat) :
    (∀ e, postgres.resolve n raw = .error e ↔
        ∃ type, ref.type = some type ∧ Identifier.isPlain type = false ∧
          e = .invalidCastType raw type) ∧
      ((∀ type ∈ ref.type, Identifier.isPlain type = true) →
        ∃ sql, postgres.resolve n raw = .ok ⟨sql, true⟩ ∧
          Sql.tokens sql.toList = some ref.tokens) ∧
      ∀ raw' ref' n' field field', FieldRef.parse raw' = some ref' →
        postgres.resolve n raw = .ok field → postgres.resolve n' raw' = .ok field' →
          (field.sql = field'.sql ↔ ref.table = ref'.table ∧ ref.column = ref'.column ∧
            ref.key = ref'.key ∧ ref.cast = ref'.cast) := by
  have hexpr : ∀ {raw ref n field}, FieldRef.parse raw = some ref →
      postgres.resolve n raw = .ok field → field.sql = Postgres.jsonExpr ref ∧
        Sql.tokens field.sql.toList = some ref.tokens := by
    intro raw ref n field href hok
    obtain ⟨type, -, -, herror⟩ | ⟨hok', hplain⟩ :=
      postgres_resolve_of_parse_eq_some href (n := n)
    · cases hok.symm.trans herror
    · obtain rfl := Except.ok.inj (hok'.symm.trans hok)
      exact ⟨rfl, tokens_jsonExpr hplain⟩
  refine ⟨fun e => ?_, fun hplain => ?_, fun raw' ref' n' field field' href' hok hok' => ?_⟩
  · obtain ⟨type, htype, hplain, herror⟩ | ⟨hok, hplain⟩ :=
      postgres_resolve_of_parse_eq_some href (n := n)
    · constructor
      · intro h
        exact ⟨type, htype, hplain, Except.error.inj (h.symm.trans herror)⟩
      · rintro ⟨type', htype', -, rfl⟩
        obtain rfl := Option.some.inj (htype.symm.trans htype')
        exact herror
    · constructor
      · intro h
        cases h.symm.trans hok
      · rintro ⟨type, htype, hnot, -⟩
        cases hnot.symm.trans (hplain type htype)
  · refine ⟨Postgres.jsonExpr ref, ?_, tokens_jsonExpr hplain⟩
    obtain ⟨type, htype, hnot, -⟩ | ⟨hok, -⟩ := postgres_resolve_of_parse_eq_some href (n := n)
    · cases hnot.symm.trans (hplain type htype)
    · exact hok
  · obtain ⟨hsql, htokens⟩ := hexpr href hok
    obtain ⟨hsql', htokens'⟩ := hexpr href' hok'
    rw [← FieldRef.tokens_inj]
    constructor
    · intro heq
      rw [heq, htokens'] at htokens
      exact (Option.some.inj htokens).symm
    · intro heq
      obtain ⟨htable, hcolumn, hkey, hcast⟩ := FieldRef.tokens_inj.1 heq
      rw [hsql, hsql', Postgres.jsonExpr, Postgres.jsonExpr, Postgres.extraction,
        Postgres.extraction, Postgres.column, Postgres.column, htable, hcolumn, hkey, hcast]

/-- Quotes at both ends of a column and of a key, and a comment behind them: all of it
stays in its token. -/
theorem postgres_rewrites_exactly_quotes :
    FieldRef.parse ".json:\"c\".'k') --':date" = some ⟨some "", "\"c\"", "'k') --'", some "date"⟩ ∧
      postgres.resolve 0 ".json:\"c\".'k') --':date" =
        .ok ⟨"CAST((\"\".\"\"\"c\"\"\"->'''k'') --''')::text AS DATE)", true⟩ ∧
      Sql.tokens "CAST((\"\".\"\"\"c\"\"\"->'''k'') --''')::text AS DATE)".toList =
        some [.keyword .cast, .sign .opening, .sign .opening, .name ⟨"", true⟩, .sign .dot,
          .name ⟨"\"c\"", true⟩, .sign .arrow, .text "'k') --'", .sign .closing, .castTo "text",
          .keyword .as, .name ⟨"DATE", false⟩, .sign .closing] := by
  have href : FieldRef.parse ".json:\"c\".'k') --':date" =
      some ⟨some "", "\"c\"", "'k') --'", some "date"⟩ := by rfl
  have hresolve : postgres.resolve 0 ".json:\"c\".'k') --':date" =
      .ok ⟨"CAST((\"\".\"\"\"c\"\"\"->'''k'') --''')::text AS DATE)", true⟩ := by rfl
  refine ⟨href, hresolve, ?_⟩
  obtain ⟨sql, hsql, htokens⟩ := (postgres_rewrites_exactly href 0).2.1 fun type htype => by
    obtain rfl := Option.some.inj htype
    decide
  cases hsql.symm.trans hresolve
  exact htokens

end SqlFilter
