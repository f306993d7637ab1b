/-
# How a filter is written

The documents that stand for a filter (`Node.IsWritten`).  There are many for each filter:

| part | is written as |
| --- | --- |
| a range | an object of its bounds under `start` and `end` |
| a list | an array |
| any other operand | the document of its value |
| a leaf's operator and operand | one of four questions (`Wire.Question`) |
| a group's children | an array under `rules` or under `data` |
| a group's connective | its word in letters of either case; nothing for `and` |

The members of an object stand in any order, and what is absent is left out or `null`.  An
empty field may be left out as well.

The kind of an operand is not written, it follows from the kind of the document.  So a
scalar that is `NULL` or an array, and a range with a bound that is `NULL`, are written
like other operands.  Without these (`Operand.Unambiguous`) an operand is found again in
its document (`Operand.ofJson_of_isWritten`).
-/

import SqlFilter.Proofs.Run
import SqlFilter.Proofs.Wire.Documents
import SqlFilter.Wire.Filter

namespace SqlFilter

open Json (Holds)

/-! ### Values -/

namespace Value

theorem ofNumber_toInt (i : Int64) : ofNumber (.int i.toInt) = int i := by
  rw [ofNumber, if_pos ⟨i.minValue_le_toInt, i.toInt_le⟩, Int64.ofInt_toInt]

mutual

/-- **A value is found again** in its document. -/
theorem ofJson_toJson : ∀ v : Value, ofJson v.toJson = v
  | null => rfl
  | bool _ => rfl
  | int i => ofNumber_toInt i
  | float _ => rfl
  | str _ => rfl
  | arr items => congrArg arr (ofJsonItems_toJsonItems items)

theorem ofJsonItems_toJsonItems : ∀ vs : List Value, ofJsonItems (toJsonItems vs) = vs
  | [] => rfl
  | v :: vs => congrArg₂ List.cons (ofJson_toJson v) (ofJsonItems_toJsonItems vs)

end

mutual

/-- The document of a value holds no object. -/
theorem canonical_toJson : ∀ v : Value, v.toJson.canonical = v.toJson
  | null => rfl
  | bool _ => rfl
  | int _ => rfl
  | float _ => rfl
  | str _ => rfl
  | arr items => congrArg Json.arr (canonicalItems_toJsonItems items)

theorem canonicalItems_toJsonItems : ∀ vs : List Value,
    Json.canonicalItems (toJsonItems vs) = toJsonItems vs
  | [] => rfl
  | v :: vs => congrArg₂ List.cons (canonical_toJson v) (canonicalItems_toJsonItems vs)

end

theorem toJson_ne_null {v : Value} (h : v ≠ null) : v.toJson ≠ .null := by
  cases v with
  | null => exact absurd rfl h
  | _ => exact Json.noConfusion

end Value

/-! ### Operands -/

/-- A document that stands for an operand. -/
inductive Operand.IsWritten : Operand → Json → Prop
  | scalar (v : Value) : IsWritten (.scalar v) v.toJson
  | list (items : List Value) : IsWritten (.list items) (.arr (Value.toJsonItems items))
  | range {start stop : Option Value} {members : List (String × Json)}
      (h : Holds members [("start", start.map Value.toJson), ("end", stop.map Value.toJson)]) :
      IsWritten (.range start stop) (.obj members)

/-- An operand that is not written like another one. -/
def Operand.Unambiguous : Operand → Prop
  | .scalar v => v ≠ .null ∧ ∀ items, v ≠ .arr items
  | .list _ => True
  | .range start stop => start ≠ some .null ∧ stop ≠ some .null

namespace Operand

/-- A bound is found again under its name. -/
theorem boundOfJson_of_holds {members : List (String × Json)}
    {parts : List (String × Option Json)} (h : Holds members parts)
    (hparts : (parts.map Prod.fst).Nodup) {name : String} {v : Option Value}
    (hv : (name, v.map Value.toJson) ∈ parts) (hnull : v ≠ some .null) :
    boundOfJson ((Json.canonicalMembers members).foldl
      (fun all m => Json.insertMember m.1 m.2 all) []) name = v := by
  rw [boundOfJson, Json.lookup_canonical h.nodup]
  cases v with
  | none =>
    rcases h.lookup hparts hv with hl | ⟨-, hl⟩ <;> rw [hl] <;> rfl
  | some v =>
    have hl := (h.lookup hparts hv).resolve_right fun habsent => by cases habsent.1
    have hv : v.isNull = false := by
      rw [← Bool.not_eq_true, Value.isNull_eq_true_iff]
      exact fun hv => hnull (congrArg some hv)
    rw [hl]
    show bound (some (Value.ofJson v.toJson.canonical)) = some v
    rw [Value.canonical_toJson, Value.ofJson_toJson]
    simp [bound, Option.filter, hv]

/-- **An operand is found again** in its document. -/
theorem ofJson_of_isWritten {operand : Operand} {j : Json} (hu : operand.Unambiguous)
    (h : operand.IsWritten j) : j ≠ .null ∧ ofJson j.canonical = operand := by
  cases h with
  | scalar v =>
    refine ⟨Value.toJson_ne_null hu.1, ?_⟩
    rw [Value.canonical_toJson]
    have hv := Value.ofJson_toJson v
    cases v with
    | null => exact absurd rfl hu.1
    | arr items => exact absurd rfl (hu.2 items)
    | _ => exact congrArg scalar hv
  | list items =>
    refine ⟨Json.noConfusion, ?_⟩
    rw [Json.canonical, Value.canonicalItems_toJsonItems]
    exact congrArg list (Value.ofJsonItems_toJsonItems items)
  | @range start stop members hm =>
    refine ⟨Json.noConfusion, ?_⟩
    have hnames : ([("start", start.map Value.toJson), ("end", stop.map Value.toJson)].map
        Prod.fst).Nodup := by
      simp
    exact congrArg₂ range (boundOfJson_of_holds hm hnames (List.mem_cons_self ..) hu.1)
      (boundOfJson_of_holds hm hnames (List.mem_cons_of_mem _ (List.mem_cons_self ..)) hu.2)

end Operand

/-! ### Leaves -/

namespace Wire

/-- **How the operator and the operand of a leaf are written**: the parts of its object for
them.  An operator is a `type` or, without one, a `filter`; it can be left out if it is
empty, but not where the operand would be taken for it. -/
inductive Question (operator : String) (operand : Option Json) :
    List (String × Option Json) → Prop
  | condition {word : Option String} {members : List (String × Json)}
      (hword : word.getD "" = operator)
      (h : Holds members [("type", word.map .str), ("filter", operand)]) :
      Question operator operand [("condition", some (.obj members))]
  | typeFilter : Question operator operand [("type", some (.str operator)), ("filter", operand)]
  | typeValue : Question operator operand [("type", some (.str operator)), ("value", operand)]
  | filterValue {word : Option String} (hword : word.getD "" = operator) :
      Question operator operand [("filter", word.map .str), ("value", operand)]

end Wire

/-- The other parts of a leaf's object, where `field` is the field as it is written. -/
def Leaf.parts (leaf : Leaf) (field : Option String) : List (String × Option Json) :=
  [("field", field.map .str), ("alias", leaf.aliasName.map .str),
    ("predicate", leaf.predicate.map .str),
    ("includes", (leaf.includes.map Value.toJsonItems).map .arr)]

/-- The members of an object that stands for a leaf. -/
inductive Leaf.IsWritten (leaf : Leaf) : List (String × Json) → Prop
  | intro {field : Option String} {operand : Option Json} {question : List (String × Option Json)}
      {members : List (String × Json)} (hfield : field.getD "" = leaf.field)
      (hoperand : Option.Rel Operand.IsWritten leaf.operand operand)
      (hquestion : Wire.Question leaf.operator operand question)
      (h : Holds members (leaf.parts field ++ question)) : IsWritten leaf members

/-! ### Trees -/

/-- The word of a connective. -/
def Glue.word : Glue → String
  | .and => "and"
  | .or => "or"

/-- A word, in letters of either case, that stands for a connective; no word stands for
`and`. -/
def Glue.IsSpelled (glue : Glue) : Option String → Prop
  | none => glue = .and
  | some word => word.toList.map Char.toLower = glue.word.toList

/-- **A document that stands for a filter.** -/
inductive Node.IsWritten : Node → Json → Prop
  | leaf {leaf : Leaf} {members : List (String × Json)} (h : leaf.IsWritten members) :
      IsWritten (.leaf leaf) (.obj members)
  | group {glue : Glue} {rules : List Node} {word : Option String} {name : String}
      {docs : List Json} {members : List (String × Json)} (hword : glue.IsSpelled word)
      (hname : name = "rules" ∨ name = "data") (hrules : List.Forall₂ IsWritten rules docs)
      (h : Holds members [("glue", word.map .str), (name, some (.arr docs))]) :
      IsWritten (.group glue rules) (.obj members)

theorem Glue.ofName_of_isSpelled {glue : Glue} {word : Option String} (h : glue.IsSpelled word) :
    (word.map ofName).getD .and = glue := by
  cases word with
  | none => exact h.symm
  | some word =>
    show ofName word = glue
    rw [ofName, show word.toList.map Char.toLower = glue.word.toList from h]
    cases glue <;> decide

/-! ### Every filter is written somehow -/

theorem Operand.exists_isWritten : ∀ operand : Operand, ∃ j, operand.IsWritten j
  | .scalar v => ⟨_, .scalar v⟩
  | .list items => ⟨_, .list items⟩
  | .range _ _ => ⟨_, .range (Json.holds_given _ (by simp))⟩

/-- **A leaf can ask its question in each of the ways.** -/
theorem Leaf.exists_isWritten {leaf : Leaf} {operand : Option Json}
    {question : List (String × Option Json)}
    (hoperand : Option.Rel Operand.IsWritten leaf.operand operand)
    (hquestion : Wire.Question leaf.operator operand question) :
    ∃ members, leaf.IsWritten members := by
  have hfield : (some leaf.field).getD "" = leaf.field := rfl
  refine ⟨_, .intro hfield hoperand hquestion (Json.holds_given _ ?_)⟩
  cases hquestion <;> simp [parts]

theorem Node.exists_isWritten (node : Node) : ∃ j, node.IsWritten j := by
  induction node with
  | leaf leaf =>
    obtain ⟨operand, hoperand⟩ : ∃ operand, Option.Rel Operand.IsWritten leaf.operand operand := by
      cases leaf.operand with
      | none => exact ⟨none, .none⟩
      | some operand =>
        obtain ⟨j, hj⟩ := operand.exists_isWritten
        exact ⟨some j, .some hj⟩
    obtain ⟨members, h⟩ := Leaf.exists_isWritten hoperand .typeFilter
    exact ⟨_, .leaf h⟩
  | group glue rules ih =>
    obtain ⟨docs, hdocs⟩ : ∃ docs, List.Forall₂ Node.IsWritten rules docs := by
      induction rules with
      | nil => exact ⟨[], .nil⟩
      | cons rule rules ihr =>
        obtain ⟨j, hj⟩ := ih rule (List.mem_cons_self ..)
        obtain ⟨docs, hdocs⟩ := ihr fun r hr => ih r (List.mem_cons_of_mem _ hr)
        exact ⟨j :: docs, .cons hj hdocs⟩
    have hword : glue.IsSpelled (some glue.word) := by
      show glue.word.toList.map Char.toLower = glue.word.toList
      cases glue <;> decide
    exact ⟨_, .group hword (.inl rfl) hdocs (Json.holds_given
      [("glue", some (.str glue.word)), ("rules", some (.arr docs))] (by simp))⟩

end SqlFilter
