/-
# Fields

What a field is resolved to.  MySQL writes every field as it is.  Postgres does so
with every field but the references into JSON columns (`postgres_resolve_eq_ok`), and
of these it quotes the names and the key, so that what it writes holds no character
that the reference does not hold, apart from the signs of the expression itself.
-/

import SqlFilter.Proofs.References

namespace SqlFilter

/-- MySQL leaves a field as it is. -/
theorem mysql_resolve (s : Unit) (raw : String) : mysql.resolve s raw = .ok ⟨raw, false⟩ := by
  rw [Dialect.resolve]
  cases FieldRef.parse raw <;> rfl

/-- **What Postgres resolves a field to**: the field itself, or the expression of a JSON
reference whose type, if there is one, is plain. -/
theorem postgres_resolve_eq_ok {n : Nat} {raw : String} {field : FieldExpr}
    (h : postgres.resolve n raw = .ok field) :
    (FieldRef.parse raw = none ∧ field = ⟨raw, false⟩) ∨
      ∃ ref, FieldRef.parse raw = some ref ∧ field = ⟨Postgres.jsonExpr ref, true⟩ ∧
        ∀ type, ref.type = some type → Identifier.isPlain type = true := by
  rw [Dialect.resolve] at h
  cases hp : FieldRef.parse raw with
  | none =>
    rw [hp] at h
    exact .inl ⟨rfl, (Except.ok.inj h).symm⟩
  | some ref =>
    rw [hp] at h
    refine .inr ⟨ref, rfl, ?_⟩
    cases ht : ref.type with
    | none =>
      simp only [postgres, ht] at h
      exact ⟨(Except.ok.inj h).symm, fun type h => by cases h⟩
    | some type =>
      simp only [postgres, ht] at h
      split at h
      · rename_i hplain
        refine ⟨(Except.ok.inj h).symm, fun type' h => ?_⟩
        obtain rfl := Option.some.inj h
        exact hplain
      · cases h

/-! ### Characters -/

namespace FieldRef

/-- A character stands in no part of a reference. -/
structure Lacks (ref : FieldRef) (c : Char) : Prop where
  table : ∀ table, ref.table = some table → c ∉ table.toList
  column : c ∉ ref.column.toList
  key : c ∉ ref.key.toList
  type : ∀ type, ref.type = some type → c ∉ type.toList

/-- **The parts of a reference are parts of its text.** -/
theorem lacks_of_parse {raw : String} {ref : FieldRef} (h : parse raw = some ref) {c : Char}
    (hc : c ∉ raw.toList) : ref.Lacks c := by
  obtain ⟨-, rfl⟩ := parse_eq_some_iff.1 h
  simp only [text, lastPart, String.toList_append, List.mem_append, not_or] at hc
  obtain ⟨⟨⟨⟨htable, -⟩, hcolumn⟩, -⟩, hkey, htype⟩ := hc
  refine ⟨fun table ht hm => htable ?_, hcolumn, hkey, fun type ht hm => htype ?_⟩
  · rw [ht, Option.elim_some, String.toList_append]
    exact List.mem_append_left _ hm
  · rw [ht, Option.elim_some, String.toList_append]
    exact List.mem_append_right _ hm

end FieldRef

namespace Postgres

/-- A text between quotes has the characters of the text, and quotes. -/
theorem not_mem_enclose {quote c : Char} {text : String} (hq : c ≠ quote)
    (hc : c ∉ text.toList) : c ∉ (enclose quote text).toList := by
  rw [enclose, String.toList_ofList]
  simp only [List.mem_cons, List.mem_append, List.mem_flatMap, List.not_mem_nil, not_or]
  refine ⟨⟨hq, ?_⟩, hq, not_false⟩
  rintro ⟨a, ha, hca⟩
  have hca : c = a := by
    split at hca <;> simpa using hca
  exact hc (hca ▸ ha)

/-- The expression of a reference has the characters of the reference, and those of its
own words and signs. -/
theorem not_mem_jsonExpr {ref : FieldRef} {c : Char}
    (hc : c ∉ "\"'().->::CAST(::text AS DATE)::numeric".toList) (h : ref.Lacks c) :
    c ∉ (jsonExpr ref).toList := by
  simp at hc
  have hname : ∀ {text : String}, c ∉ text.toList → c ∉ (quoteName text).toList :=
    fun h => not_mem_enclose (by simp [hc]) h
  have hcolumn : c ∉ (column ref).toList := by
    rw [column]
    cases ht : ref.table with
    | none => exact hname h.column
    | some table =>
      simp only [String.toList_append, List.mem_append, not_or]
      exact ⟨⟨hname (h.table table ht), by simp [hc]⟩, hname h.column⟩
  have hextraction : c ∉ (extraction ref).toList := by
    simp only [extraction, String.toList_append, List.mem_append, not_or]
    exact ⟨⟨⟨⟨by simp [hc], hcolumn⟩, by simp [hc]⟩, not_mem_enclose (by simp [hc]) h.key⟩,
      by simp [hc]⟩
  rw [jsonExpr]
  rcases hcast : ref.cast with _ | type
  · simp only [String.toList_append, List.mem_append, not_or]
    exact ⟨⟨by simp [hc], hextraction⟩, by simp [hc]⟩
  · simp only [String.toList_append, List.mem_append, not_or]
    refine ⟨⟨hextraction, by simp [hc]⟩, ?_⟩
    rw [FieldRef.cast] at hcast
    split at hcast <;> cases hcast
    · simp [FieldRef.defaultType, hc]
    · simp [hc]
    · exact h.type _ (by assumption)

end Postgres

end SqlFilter
