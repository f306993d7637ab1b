/-
# Documents that a text spells

A text that is in order spells a document (`Json.Spells`): its tree has no fault, and the
members of an object are those of the text, in the order of the text and with the names
that it repeats.

An object is meant to have certain parts, and there is more than one object with these
parts (`Json.Holds`): the order of members does not matter, and a part that is absent is
left out or `null`.
-/

import Mathlib.Data.List.Forall2
import Mathlib.Data.List.Nodup
import SqlFilter.Json.Reader

namespace SqlFilter
namespace Json

/-! ### Documents -/

mutual

/-- How many arrays and objects of a document are open at a time. -/
def depth : Json → Nat
  | .null => 0
  | .bool _ => 0
  | .num _ => 0
  | .str _ => 0
  | .arr items => depthItems items + 1
  | .obj members => depthMembers members + 1

/-- The depth of the deepest document. -/
def depthItems : List Json → Nat
  | [] => 0
  | j :: js => max (depth j) (depthItems js)

/-- The depth of the deepest member. -/
def depthMembers : List (String × Json) → Nat
  | [] => 0
  | (_, j) :: ms => max (depth j) (depthMembers ms)

end

theorem depthItems_le_iff {items : List Json} {n : Nat} :
    depthItems items ≤ n ↔ ∀ j ∈ items, j.depth ≤ n := by
  induction items with
  | nil => simp [depthItems]
  | cons j js ih => rw [depthItems, Nat.max_le, ih, List.forall_mem_cons]

theorem depthMembers_le_iff {members : List (String × Json)} {n : Nat} :
    depthMembers members ≤ n ↔ ∀ m ∈ members, m.2.depth ≤ n := by
  induction members with
  | nil => simp [depthMembers]
  | cons m ms ih => rw [depthMembers, Nat.max_le, ih, List.forall_mem_cons]

mutual

/-- A document with the members of its objects in the order of their names, each name
once. -/
def canonical : Json → Json
  | .null => .null
  | .bool b => .bool b
  | .num n => .num n
  | .str s => .str s
  | .arr items => .arr (canonicalItems items)
  | .obj members => ofMembers (canonicalMembers members)

/-- The same for several documents. -/
def canonicalItems : List Json → List Json
  | [] => []
  | j :: js => canonical j :: canonicalItems js

/-- The same for the values of members. -/
def canonicalMembers : List (String × Json) → List (String × Json)
  | [] => []
  | (name, j) :: ms => (name, canonical j) :: canonicalMembers ms

end

theorem canonicalItems_eq_map (items : List Json) : canonicalItems items = items.map canonical := by
  induction items with
  | nil => rfl
  | cons j js ih => rw [canonicalItems, ih, List.map_cons]

theorem canonicalMembers_eq_map (members : List (String × Json)) :
    canonicalMembers members = members.map fun m => (m.1, m.2.canonical) := by
  induction members with
  | nil => rfl
  | cons m ms ih => rw [canonicalMembers, ih, List.map_cons]

/-! ### Objects -/

/-- An object has these members, in any order: `null` stands for a part that is absent, and
only absent parts are left out. -/
structure Holds (members : List (String × Json)) (parts : List (String × Option Json)) :
    Prop where
  nodup : (members.map Prod.fst).Nodup
  part : ∀ m ∈ members, ∃ o, (m.1, o) ∈ parts ∧ m.2 = o.getD .null
  given : ∀ name j, (name, some j) ∈ parts → (name, j) ∈ members

theorem lookup_cons (key name : String) (value : Json) (members : List (String × Json)) :
    ((name, value) :: members).lookup key =
      if key = name then some value else members.lookup key := by
  rw [List.lookup_cons]
  by_cases h : key = name
  · rw [if_pos h, h, beq_self_eq_true]
  · rw [if_neg h, beq_false_of_ne h]

theorem lookup_insertMember (name key : String) (value : Json) (members : List (String × Json)) :
    (insertMember name value members).lookup key =
      if key = name then some value else members.lookup key := by
  induction members with
  | nil => exact lookup_cons ..
  | cons m ms ih =>
    obtain ⟨k, v⟩ := m
    rw [insertMember]
    split
    · exact lookup_cons ..
    · split
      · rename_i hk
        subst hk
        simp only [lookup_cons]
        split <;> rfl
      · rename_i hk
        simp only [lookup_cons, ih]
        by_cases h : key = name
        · rw [if_neg fun hkey => hk (h.symm.trans hkey), if_pos h, if_pos h]
        · rw [if_neg h, if_neg h]

theorem mem_of_lookup_eq_some {members : List (String × Json)} {name : String} {j : Json}
    (h : members.lookup name = some j) : (name, j) ∈ members := by
  induction members with
  | nil => cases h
  | cons m ms ih =>
    obtain ⟨k, v⟩ := m
    rw [lookup_cons] at h
    split at h
    · rename_i hk
      obtain rfl := Option.some.inj h
      exact hk ▸ List.mem_cons_self
    · exact List.mem_cons_of_mem _ (ih h)

/-- **What stands under a name** in an object whose names are not repeated. -/
theorem lookup_foldl_insertMember {members : List (String × Json)}
    (h : (members.map Prod.fst).Nodup) (key : String) (all : List (String × Json)) :
    (members.foldl (fun all m => insertMember m.1 m.2 all) all).lookup key =
      (members.lookup key).or (all.lookup key) := by
  induction members generalizing all with
  | nil => rfl
  | cons m ms ih =>
    obtain ⟨name, value⟩ := m
    obtain ⟨hname, hms⟩ := List.nodup_cons.1 h
    rw [List.foldl_cons, ih hms, lookup_insertMember, lookup_cons]
    by_cases hk : key = name
    · have hnone : ms.lookup key = none := by
        cases hl : ms.lookup key with
        | none => rfl
        | some j => exact absurd (List.mem_map_of_mem (mem_of_lookup_eq_some hl)) (hk ▸ hname)
      rw [hnone, if_pos hk, if_pos hk, Option.none_or, Option.some_or]
    · rw [if_neg hk, if_neg hk]

/-- **What stands under a name** after the members are put in order. -/
theorem lookup_canonical {members : List (String × Json)} (h : (members.map Prod.fst).Nodup)
    (key : String) :
    ((canonicalMembers members).foldl (fun all m => insertMember m.1 m.2 all) []).lookup key =
      (members.lookup key).map canonical := by
  have hnames : (canonicalMembers members).map Prod.fst = members.map Prod.fst := by
    rw [canonicalMembers_eq_map, List.map_map]
    rfl
  rw [lookup_foldl_insertMember (hnames ▸ h), List.lookup_nil, Option.or_none]
  clear h hnames
  induction members with
  | nil => rfl
  | cons m ms ih =>
    rw [canonicalMembers, lookup_cons, ih, lookup_cons]
    split <;> rfl

namespace Holds

variable {members : List (String × Json)} {parts : List (String × Option Json)}

theorem depth_le (h : Holds members parts) {n : Nat} (hdepth : depthMembers members ≤ n)
    {name : String} {j : Json} (hj : (name, some j) ∈ parts) : j.depth ≤ n :=
  depthMembers_le_iff.1 hdepth _ (h.given name j hj)

/-- **A part of an object** stands under its name, unless it is absent. -/
theorem lookup (h : Holds members parts) (hparts : (parts.map Prod.fst).Nodup) {name : String}
    {o : Option Json} (ho : (name, o) ∈ parts) :
    members.lookup name = some (o.getD .null) ∨ o = none ∧ members.lookup name = none := by
  cases hl : members.lookup name with
  | some j =>
    obtain ⟨o', ho', hj⟩ := h.part _ (mem_of_lookup_eq_some hl)
    obtain rfl : o = o' := by
      have hpair := List.inj_on_of_nodup_map hparts ho ho' rfl
      exact congrArg Prod.snd hpair
    exact .inl (congrArg some hj)
  | none =>
    refine .inr ⟨?_, rfl⟩
    cases o with
    | none => rfl
    | some j =>
      have hmem := h.given name j ho
      rw [List.lookup_eq_none_iff] at hl
      exact absurd (hl _ hmem) (by simp)

end Holds

/-- The members of an object that leaves out what is absent. -/
def given (parts : List (String × Option Json)) : List (String × Json) :=
  parts.filterMap fun p => p.2.map (p.1, ·)

theorem mem_given {parts : List (String × Option Json)} {m : String × Json} :
    m ∈ given parts ↔ (m.1, some m.2) ∈ parts := by
  rw [given, List.mem_filterMap]
  constructor
  · rintro ⟨p, hp, hm⟩
    obtain ⟨j, hj, rfl⟩ := Option.map_eq_some_iff.1 hm
    exact hj ▸ hp
  · exact fun hm => ⟨_, hm, rfl⟩

theorem nodup_given {parts : List (String × Option Json)} (h : (parts.map Prod.fst).Nodup) :
    ((given parts).map Prod.fst).Nodup := by
  refine List.Nodup.sublist ?_ h
  clear h
  induction parts with
  | nil => exact .slnil
  | cons p ps ih =>
    obtain ⟨name, _ | j⟩ := p
    · exact ih.cons name
    · exact ih.cons_cons name

/-- **Parts of different names have an object.** -/
theorem holds_given (parts : List (String × Option Json)) (h : (parts.map Prod.fst).Nodup) :
    Holds (given parts) parts where
  nodup := nodup_given h
  part m hm := ⟨some m.2, mem_given.1 hm, rfl⟩
  given _ _ hj := mem_given.2 hj

theorem Holds.perm {members others : List (String × Json)} {parts : List (String × Option Json)}
    (h : Holds members parts) (hperm : others.Perm members) : Holds others parts where
  nodup := (hperm.map Prod.fst).nodup_iff.2 h.nodup
  part m hm := h.part m (hperm.mem_iff.1 hm)
  given name j hj := hperm.mem_iff.2 (h.given name j hj)

/-! ### Spelling -/

mutual

/-- The document that a tree spells, if the tree has no fault. -/
def Written.document? : Written → Option Json
  | .null => some .null
  | .bool b => some (.bool b)
  | .number n => n.value.toOption.map .num
  | .string s => s.value.toOption.map .str
  | .array items none => (itemDocuments? items).map .arr
  | .object members none => (memberDocuments? members).map .obj
  | .array _ (some _) => none
  | .object _ (some _) => none
  | .fault _ => none

/-- The documents that the items of an array spell. -/
def itemDocuments? : List Written → Option (List Json)
  | [] => some []
  | w :: ws => do return (← w.document?) :: (← itemDocuments? ws)

/-- The members that the members of an object spell. -/
def memberDocuments? : List (Lexeme String × Written) → Option (List (String × Json))
  | [] => some []
  | (name, w) :: ms => do
    return (← name.value.toOption, ← w.document?) :: (← memberDocuments? ms)

end

/-- A text spells a document, with nothing but blanks around it. -/
def Spells (text : String) (j : Json) : Prop :=
  ∃ w rest, Written.ofText text = (w, some rest) ∧ rest.all isBlank = true ∧
    w.document? = some j

/-- A member of an object spells a name and a document. -/
def SpellsMember (m : Lexeme String × Written) (d : String × Json) : Prop :=
  m.1.value = .ok d.1 ∧ m.2.document? = some d.2

theorem toOption_eq_some_iff {ε α : Type} {x : Except ε α} {a : α} :
    x.toOption = some a ↔ x = .ok a := by
  cases x <;> simp [Except.toOption]

theorem itemDocuments?_eq_some {items : List Written} {docs : List Json}
    (h : itemDocuments? items = some docs) :
    List.Forall₂ (fun w j => w.document? = some j) items docs := by
  induction items generalizing docs with
  | nil =>
    obtain rfl := Option.some.inj h
    exact .nil
  | cons w ws ih =>
    rw [itemDocuments?] at h
    simp only [Option.bind_eq_bind, Option.bind_eq_some_iff, Option.pure_def] at h
    obtain ⟨j, hj, js, hjs, heq⟩ := h
    obtain rfl := Option.some.inj heq
    exact .cons hj (ih hjs)

theorem memberDocuments?_eq_some {members : List (Lexeme String × Written)}
    {docs : List (String × Json)} (h : memberDocuments? members = some docs) :
    List.Forall₂ SpellsMember members docs := by
  induction members generalizing docs with
  | nil =>
    obtain rfl := Option.some.inj h
    exact .nil
  | cons m ms ih =>
    obtain ⟨name, w⟩ := m
    rw [memberDocuments?] at h
    simp only [Option.bind_eq_bind, Option.bind_eq_some_iff, Option.pure_def] at h
    obtain ⟨s, hs, j, hj, ds, hds, heq⟩ := h
    obtain rfl := Option.some.inj heq
    exact .cons ⟨toOption_eq_some_iff.1 hs, hj⟩ (ih hds)

namespace Written

/-! ### Trees of a document -/

theorem eq_null_of_document? {w : Written} (h : w.document? = some .null) : w = null := by
  cases w with
  | null => rfl
  | array items stop => cases stop <;> simp [document?] at h
  | object members stop => cases stop <;> simp [document?] at h
  | _ => simp [document?] at h

theorem eq_string_of_document? {w : Written} {s : String} (h : w.document? = some (.str s)) :
    ∃ lexeme, w = string lexeme ∧ lexeme.value = .ok s := by
  cases w with
  | string lexeme =>
    refine ⟨lexeme, rfl, ?_⟩
    simpa [document?, toOption_eq_some_iff] using h
  | array items stop => cases stop <;> simp [document?] at h
  | object members stop => cases stop <;> simp [document?] at h
  | _ => simp [document?] at h

theorem eq_array_of_document? {w : Written} {docs : List Json}
    (h : w.document? = some (.arr docs)) :
    ∃ items, w = array items none ∧ List.Forall₂ (fun w j => w.document? = some j) items docs := by
  cases w with
  | array items stop =>
    cases stop with
    | some p => cases h
    | none =>
      refine ⟨items, rfl, itemDocuments?_eq_some ?_⟩
      simpa [document?] using h
  | object members stop => cases stop <;> simp [document?] at h
  | _ => simp [document?] at h

theorem eq_object_of_document? {w : Written} {docs : List (String × Json)}
    (h : w.document? = some (.obj docs)) :
    ∃ members, w = object members none ∧ List.Forall₂ SpellsMember members docs := by
  cases w with
  | object members stop =>
    cases stop with
    | some p => cases h
    | none =>
      refine ⟨members, rfl, memberDocuments?_eq_some ?_⟩
      simpa [document?] using h
  | array items stop => cases stop <;> simp [document?] at h
  | _ => simp [document?] at h

end Written

end Json
end SqlFilter
