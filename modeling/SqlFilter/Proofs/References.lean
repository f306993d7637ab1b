/-
# The grammar of references

Which texts are references into JSON columns, and what is lost when one is read: nothing.
A reference has a text (`FieldRef.text`),

```text
[table.]json:column.key[:type]
```

and some references have the text of another, or of none that is read, because a text is
cut at its first dots and its first colon.  Those that are read back are the `Readable`
ones:

| part | holds no dot | holds no colon | may be empty |
| --- | --- | --- | --- |
| table | always | | yes |
| column | always | | no |
| key | without a table | always | no |
| type | without a table | | yes |

`FieldRef.parse_eq_some_iff` says that the reader is the inverse of the text on these.
-/

import SqlFilter.Dialect.MySql
import SqlFilter.Dialect.Postgres

namespace SqlFilter
namespace FieldRef

/-! ### The text of a reference -/

/-- The part of a reference behind its last cut: the key, and the type behind a colon. -/
def lastPart (ref : FieldRef) : String :=
  ref.key ++ ref.type.elim "" (":" ++ ·)

/-- The text of a reference: `[table.]json:column.key[:type]`. -/
def text (ref : FieldRef) : String :=
  ref.table.elim "" (· ++ ".") ++ marker ++ ref.column ++ "." ++ ref.lastPart

/-- A reference can be read back from its text.  With a table two dots are cuts, and the
key and the type may hold more of them; without one there is a single dot. -/
structure Readable (ref : FieldRef) : Prop where
  column_ne_empty : ref.column ≠ ""
  dot_not_mem_column : '.' ∉ ref.column.toList
  key_ne_empty : ref.key ≠ ""
  colon_not_mem_key : ':' ∉ ref.key.toList
  dots : ref.table.elim ('.' ∉ ref.key.toList ∧ ∀ type ∈ ref.type, '.' ∉ type.toList)
    fun table => '.' ∉ table.toList

/-! ### Reading the parts -/

/-- A text with a prefix is the prefix and what is behind it. -/
theorem isPrefixOf?_eq_some_iff {pre text rest : List Char} :
    pre.isPrefixOf? text = some rest ↔ text = pre ++ rest := by
  induction pre generalizing text with
  | nil => exact Option.some_inj
  | cons c pre ih =>
    cases text with
    | nil => exact iff_of_false (fun h => nomatch h) fun h => nomatch h
    | cons d text =>
      rw [List.cons_append, List.cons.injEq, ← ih]
      show (if (c == d) = true then pre.isPrefixOf? text else none) = some rest ↔ _
      by_cases h : c = d
      · simp [h]
      · simp [h, Ne.symm h]

/-- A text is what is before its first colon, and what is behind it if there is one. -/
theorem keyAndType_eq_iff {last key : List Char} {type : Option (List Char)} :
    keyAndType last = (key, type) ↔ last = key ++ type.elim [] (':' :: ·) ∧ ':' ∉ key := by
  rw [keyAndType]
  cases h : cut ':' last with
  | none =>
    have hcolon := cut_eq_none_iff.1 h
    constructor
    · intro heq
      obtain ⟨rfl, rfl⟩ := Prod.mk.inj heq
      exact ⟨by simp, hcolon⟩
    · rintro ⟨rfl, -⟩
      cases type with
      | none => simp
      | some type => exact absurd (by simp) hcolon
  | some p =>
    obtain ⟨before, after⟩ := p
    constructor
    · intro heq
      obtain ⟨rfl, rfl⟩ := Prod.mk.inj heq
      exact cut_eq_some_iff.1 h
    · rintro ⟨rfl, hkey⟩
      cases type with
      | none =>
        rw [Option.elim_none, List.append_nil, cut_eq_none_iff.2 hkey] at h
        cases h
      | some type =>
        have hcut : cut ':' (key ++ ':' :: type) = some (key, type) :=
          cut_eq_some_iff.2 ⟨rfl, hkey⟩
        obtain ⟨rfl, rfl⟩ := Prod.mk.inj (Option.some.inj (hcut.symm.trans h))
        rfl

theorem toList_lastPart (ref : FieldRef) :
    ref.lastPart.toList = ref.key.toList ++ (ref.type.map String.toList).elim [] (':' :: ·) := by
  rw [lastPart, String.toList_append]
  cases ref.type <;> simp

/-- **A reference from its parts**: the marker and the column, and the key with its type. -/
theorem ofParts_eq_some_iff {table : Option (List Char)} {marked last : List Char}
    {ref : FieldRef} :
    ofParts table marked last = some ref ↔
      ref.table = table.map String.ofList ∧ marked = marker.toList ++ ref.column.toList ∧
        last = ref.lastPart.toList ∧ ref.column ≠ "" ∧ ref.key ≠ "" ∧ ':' ∉ ref.key.toList := by
  constructor
  · intro h
    rw [ofParts] at h
    cases hp : marker.toList.isPrefixOf? marked with
    | none => rw [hp] at h; cases h
    | some column =>
      rcases hk : keyAndType last with ⟨key, type⟩
      obtain ⟨hlast, hcolon⟩ := keyAndType_eq_iff.1 hk
      simp only [hp, hk] at h
      split at h
      · cases h
      · rename_i hempty
        simp only [Bool.or_eq_true, List.isEmpty_iff, not_or] at hempty
        obtain rfl := Option.some.inj h
        refine ⟨rfl, by simpa using isPrefixOf?_eq_some_iff.1 hp, ?_, by simpa using hempty.1,
          by simpa using hempty.2, by simpa using hcolon⟩
        rw [toList_lastPart, hlast]
        cases type <;> simp
  · rintro ⟨htable, rfl, rfl, hcolumn, hkey, hcolon⟩
    have hk : keyAndType ref.lastPart.toList = (ref.key.toList, ref.type.map String.toList) :=
      keyAndType_eq_iff.2 ⟨ref.toList_lastPart, hcolon⟩
    rw [ofParts, isPrefixOf?_eq_some_iff.2 rfl, hk]
    obtain ⟨table', column, key, type⟩ := ref
    obtain rfl : table' = table.map String.ofList := htable
    simp only at hcolumn hkey
    cases type <;> simp [hcolumn, hkey]

/-! ### Reading a text -/

theorem dot_not_mem_marked {column : List Char} (h : '.' ∉ column) :
    '.' ∉ marker.toList ++ column := by
  rw [List.mem_append, not_or]
  exact ⟨by decide, h⟩

theorem toList_text_of_table_eq_none {ref : FieldRef} (h : ref.table = none) :
    ref.text.toList = (marker.toList ++ ref.column.toList) ++ '.' :: ref.lastPart.toList := by
  simp [text, h, String.toList_append]

theorem toList_text_of_table_eq_some {ref : FieldRef} {table : String}
    (h : ref.table = some table) :
    ref.text.toList = table.toList ++ '.' ::
      ((marker.toList ++ ref.column.toList) ++ '.' :: ref.lastPart.toList) := by
  simp [text, h, String.toList_append]

/-- The last part has no dot when the key and the type have none. -/
theorem dot_not_mem_lastPart {ref : FieldRef} :
    '.' ∉ ref.lastPart.toList ↔
      '.' ∉ ref.key.toList ∧ ∀ type ∈ ref.type, '.' ∉ type.toList := by
  rw [toList_lastPart]
  cases ref.type <;> simp

/-- **Reading is the inverse of writing.**  A text is read as a reference when it is the
text of that reference, and the reference is one that can be read back. -/
theorem parse_eq_some_iff {raw : String} {ref : FieldRef} :
    parse raw = some ref ↔ ref.Readable ∧ raw = ref.text := by
  constructor
  · intro h
    rw [parse] at h
    cases hfirst : cut '.' raw.toList with
    | none => rw [hfirst] at h; cases h
    | some p =>
      obtain ⟨first, rest⟩ := p
      obtain ⟨hraw, hdot⟩ := cut_eq_some_iff.1 hfirst
      rw [hfirst] at h
      cases hsecond : cut '.' rest with
      | none =>
        simp only [hsecond] at h
        obtain ⟨htable, rfl, rfl, hcolumn, hkey, hcolon⟩ := ofParts_eq_some_iff.1 h
        rw [Option.map_none] at htable
        refine ⟨⟨hcolumn, fun hm => hdot (List.mem_append_right _ hm), hkey, hcolon, ?_⟩, ?_⟩
        · rw [htable]
          exact dot_not_mem_lastPart.1 (cut_eq_none_iff.1 hsecond)
        · rw [← String.toList_inj, hraw, toList_text_of_table_eq_none htable]
      | some q =>
        obtain ⟨second, third⟩ := q
        obtain ⟨rfl, hdot'⟩ := cut_eq_some_iff.1 hsecond
        simp only [hsecond] at h
        obtain ⟨htable, rfl, rfl, hcolumn, hkey, hcolon⟩ := ofParts_eq_some_iff.1 h
        rw [Option.map_some] at htable
        refine ⟨⟨hcolumn, fun hm => hdot' (List.mem_append_right _ hm), hkey, hcolon, ?_⟩, ?_⟩
        · rw [htable]
          simpa using hdot
        · rw [← String.toList_inj, hraw, toList_text_of_table_eq_some htable,
            String.toList_ofList]
  · rintro ⟨⟨hcolumn, hdot, hkey, hcolon, hdots⟩, rfl⟩
    have hmarked := dot_not_mem_marked hdot
    have hparts : ∀ table : Option (List Char), ref.table = table.map String.ofList →
        ofParts table (marker.toList ++ ref.column.toList) ref.lastPart.toList = some ref :=
      fun table htable => ofParts_eq_some_iff.2 ⟨htable, rfl, rfl, hcolumn, hkey, hcolon⟩
    rw [parse]
    cases htable : ref.table with
    | none =>
      rw [htable] at hdots
      have hfirst := cut_eq_some_iff.2 ⟨toList_text_of_table_eq_none htable, hmarked⟩
      have hsecond := cut_eq_none_iff.2 (dot_not_mem_lastPart.2 hdots)
      simp only [hfirst, hsecond]
      exact hparts none htable
    | some table =>
      rw [htable] at hdots
      have hfirst := cut_eq_some_iff.2 ⟨toList_text_of_table_eq_some htable, hdots⟩
      have hsecond : cut '.' ((marker.toList ++ ref.column.toList) ++ '.' :: ref.lastPart.toList) =
          some (marker.toList ++ ref.column.toList, ref.lastPart.toList) :=
        cut_eq_some_iff.2 ⟨rfl, hmarked⟩
      simp only [hfirst, hsecond]
      exact hparts (some table.toList) (by simp [htable])

end FieldRef

/-- What is no reference is a column, and every dialect writes it as it is. -/
theorem Dialect.resolve_of_parse_eq_none {σ : Type} (d : Dialect σ) {raw : String}
    (h : FieldRef.parse raw = none) (s : σ) : d.resolve s raw = .ok ⟨raw, false⟩ := by
  rw [resolve, h]

/-- **References are read exactly, and nothing of them is lost.**  A text is read as a
reference when it is the text of it and its parts can be told apart.  So a reference that
was read has the text it was read from, a reference that can be read back is read from its
text, no text belongs to two of them, and every other text is a column in both databases. -/
theorem parse_reads_exactly :
    (∀ raw ref, FieldRef.parse raw = some ref ↔ ref.Readable ∧ raw = ref.text) ∧
      (∀ raw ref, FieldRef.parse raw = some ref → ref.text = raw) ∧
      (∀ ref : FieldRef, ref.Readable → FieldRef.parse ref.text = some ref) ∧
      (∀ ref ref' : FieldRef, ref.Readable → ref'.Readable → ref.text = ref'.text → ref = ref') ∧
      ∀ raw, (∀ ref : FieldRef, ref.Readable → raw ≠ ref.text) →
        FieldRef.parse raw = none ∧ (∀ n, postgres.resolve n raw = .ok ⟨raw, false⟩) ∧
          ∀ s, mysql.resolve s raw = .ok ⟨raw, false⟩ := by
  have hread : ∀ ref : FieldRef, ref.Readable → FieldRef.parse ref.text = some ref :=
    fun ref href => FieldRef.parse_eq_some_iff.2 ⟨href, rfl⟩
  refine ⟨fun _ _ => FieldRef.parse_eq_some_iff,
    fun _ _ h => (FieldRef.parse_eq_some_iff.1 h).2.symm, hread, fun ref ref' h h' heq => ?_,
    fun raw hraw => ?_⟩
  · exact Option.some.inj ((hread ref h).symm.trans (heq ▸ hread ref' h'))
  · have hnone : FieldRef.parse raw = none := by
      rw [Option.eq_none_iff_forall_ne_some]
      intro ref href
      obtain ⟨hreadable, heq⟩ := FieldRef.parse_eq_some_iff.1 href
      exact hraw ref hreadable heq
    exact ⟨hnone, postgres.resolve_of_parse_eq_none hnone, mysql.resolve_of_parse_eq_none hnone⟩

/-- Behind a table the key and the type hold dots, and a column may hold a colon; without
a table a second dot makes a column of the text. -/
theorem parse_reads_exactly_dotted :
    FieldRef.parse "json:t.json:a:b.c.d:e.f" = some ⟨some "json:t", "a:b", "c.d", some "e.f"⟩ ∧
      FieldRef.text ⟨some "json:t", "a:b", "c.d", some "e.f"⟩ = "json:t.json:a:b.c.d:e.f" ∧
      postgres.resolve 7 "json:a:b.c.d:e.f" = .ok ⟨"json:a:b.c.d:e.f", false⟩ := by
  obtain ⟨hiff, hprint, hread, -, hother⟩ := parse_reads_exactly
  have hreadable : FieldRef.Readable ⟨some "json:t", "a:b", "c.d", some "e.f"⟩ :=
    ⟨by decide, by decide, by decide, by decide, show '.' ∉ "json:t".toList by decide⟩
  have htext : FieldRef.text ⟨some "json:t", "a:b", "c.d", some "e.f"⟩ =
      "json:t.json:a:b.c.d:e.f" := by decide
  have hsome := htext ▸ hread _ hreadable
  refine ⟨hsome, hprint _ _ hsome, (hother "json:a:b.c.d:e.f" fun ref href heq => ?_).2.1 7⟩
  cases ((hiff _ ref).2 ⟨href, heq⟩).symm.trans (show FieldRef.parse "json:a:b.c.d:e.f" = none by rfl)

end SqlFilter
