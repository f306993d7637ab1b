/-
# The meaning of a filter

What a filter asks for, without a word of SQL text.  A leaf asks for an atomic condition
on its field, and a range for one or two of them; a group asks that all or any of its
children hold.  A leaf without a field, or without values and operator, asks for nothing,
and neither does a group whose children ask for nothing (`none`).

| operator | holds if |
| --- | --- |
| `between` | the field is greater than the lower and less than the upper bound |
| `notBetween` | the field is less than the lower or greater than the upper bound |

A missing bound, or one that is `NULL`, is left out of this.  The expression of a field is
its column, or on Postgres the key of a document (`Target`).
-/

import SqlFilter.Proofs.Run
import SqlFilter.Proofs.Sql.Syntax

namespace SqlFilter

/-! ### Fields -/

/-- What a filter means by a field: an expression, and whether its text has quotation
marks around it. -/
structure Target where
  expr : Sql.Expr
  quoted : Bool

/-- The column of a name. -/
def Target.column (name : String) : Target :=
  ⟨.column [⟨name, false⟩], false⟩

namespace FieldRef

/-- What a reference is to, in a document. -/
def source (ref : FieldRef) : Sql.Expr :=
  .key (.column ((ref.table.toList ++ [ref.column]).map (⟨·, true⟩))) (.text ref.key)

/-- What a reference is to, read as its type. -/
def target (ref : FieldRef) : Target where
  expr :=
    match ref.type with
    | none => .cast ref.source "text"
    | some "date" => .cast (.cast ref.source "text") "DATE"
    | some "number" => .cast ref.source "numeric"
    | some type => .cast ref.source type
  quoted := true

end FieldRef

/-- What Postgres means by a field. -/
def Postgres.target (raw : String) : Target :=
  match FieldRef.parse raw with
  | some ref => ref.target
  | none => .column raw

/-! ### Leaves -/

namespace Operand

/-- The value of an operand that has one. -/
def only : Operand → Option Value
  | scalar v => some v
  | list [v] => some v
  | _ => none

/-- The lower and the upper bound that an operand gives. -/
def limits : Operand → Option Value × Option Value
  | range start stop => (bound start, bound stop)
  | list [start, stop] => (bound (some start), bound (some stop))
  | _ => (none, none)

end Operand

/-- What a connective asks for, from what the parts that ask for something do. -/
def Glue.meaning (glue : Glue) (parts : List Bool) : Option Bool :=
  if parts.isEmpty then none else some (glue.holds parts)

section

variable (ρ : Sql.Atom → Bool)

/-- Whether a field is strictly between two bounds or, negated, strictly outside them. -/
def Target.inRange (t : Target) (negated : Bool) (lower upper : Option Value) : Option Bool :=
  let is c v := ρ ⟨t.expr, .compare c, [v]⟩
  if negated then Glue.or.meaning (lower.toList.map (is .less) ++ upper.toList.map (is .greater))
  else Glue.and.meaning (lower.toList.map (is .greater) ++ upper.toList.map (is .less))

/-- What an operator asks of a field. -/
def Operator.meaning (op : Operator) (t : Target) (operand : Option Operand) : Option Bool :=
  match op with
  | compare c => (operand.bind Operand.only).map fun v => ρ ⟨t.expr, .compare c, [v]⟩
  | pattern p negated =>
    (operand.bind Operand.only).map fun v => ρ ⟨t.expr, .pattern p negated t.quoted, [v]⟩
  | between negated =>
    operand.bind fun o => t.inRange ρ negated o.limits.1 o.limits.2

variable (target : String → Target) (config : Config)

/-- What a leaf asks for. -/
def Leaf.meaning (leaf : Leaf) : Option Bool :=
  if leaf.field = "" then none
  else if leaf.members ≠ [] then some (ρ ⟨(target leaf.field).expr, .member, leaf.members⟩)
  else (Operator.ofName? leaf.operator).bind fun op =>
    op.meaning ρ (target leaf.field) (leaf.effectiveOperand config)

mutual

/-- What a filter asks for: whether it holds, if `ρ` says which atoms do. -/
def Node.meaning : Node → Option Bool
  | .leaf leaf => leaf.meaning ρ target config
  | .group glue rules => glue.meaning (meaningAll rules)

/-- What the children that ask for something ask for. -/
def meaningAll : List Node → List Bool
  | [] => []
  | node :: nodes => node.meaning.toList ++ meaningAll nodes

end

end

/-! ### Conditions -/

/-- Whether a condition holds of a field. -/
def Condition.truth (ρ : Sql.Atom → Bool) (t : Target) : Condition → Bool
  | compare c v => ρ ⟨t.expr, .compare c, [v]⟩
  | pattern p negated v => ρ ⟨t.expr, .pattern p negated t.quoted, [v]⟩
  | between negated start stop =>
    (rangeSides negated).2.1.holds
      [ρ ⟨t.expr, .compare (rangeSides negated).1, [start]⟩,
        ρ ⟨t.expr, .compare (rangeSides negated).2.2, [stop]⟩]
  | member items => ρ ⟨t.expr, .member, items⟩

/-- One value of an operand, or how many values there are instead. -/
theorem Operator.oneValue_eq (operand : Option Operand) :
    oneValue operand =
      (operand.bind Operand.only).elim (.error (operand.elim 0 (·.values.length))) .ok := by
  unfold oneValue
  split
  · rfl
  · rfl
  · rfl
  · rename_i items hone
    rcases items with _ | ⟨v, _ | ⟨w, items⟩⟩
    · rfl
    · exact absurd rfl (hone v)
    · rfl
  · rfl

theorem Operator.only_of_oneValue {operand : Option Operand} {v : Value}
    (h : oneValue operand = .ok v) : operand.bind Operand.only = some v := by
  unfold oneValue at h
  split at h <;> cases h <;> rfl

theorem Operator.limits_of_bounds {operand : Option Operand} {b : Option Value × Option Value}
    (h : bounds operand = .ok b) :
    operand = none ∧ b = (none, none) ∨ ∃ o, operand = some o ∧ o.limits = b := by
  unfold bounds at h
  split at h <;> cases h
  · exact .inl ⟨rfl, rfl⟩
  · exact .inr ⟨_, rfl, rfl⟩
  · exact .inr ⟨_, rfl, rfl⟩

/-- The condition of two bounds asks for what the range means. -/
theorem Condition.inRange_of_ofBounds (ρ : Sql.Atom → Bool) (t : Target) {negated : Bool}
    {lower upper : Option Value} {c : Condition} (h : ofBounds negated lower upper = some c) :
    t.inRange ρ negated lower upper = some (c.truth ρ t) := by
  cases lower <;> cases upper <;> cases h <;> cases negated <;>
    simp [Target.inRange, truth, rangeSides, Glue.meaning, Glue.holds]

/-- **The condition of an operator** asks for what the operator means. -/
theorem Operator.meaning_of_condition (ρ : Sql.Atom → Bool) (t : Target) {op : Operator}
    {operand : Option Operand} {c : Condition} (h : op.condition operand = .ok c) :
    op.meaning ρ t operand = some (c.truth ρ t) := by
  rcases op.condition_eq_ok h with
    ⟨v, hv, ⟨k, rfl, rfl⟩ | ⟨p, negated, rfl, rfl⟩⟩ | ⟨negated, start, stop, rfl, hb, hc⟩
  · rw [meaning, only_of_oneValue hv]
    rfl
  · rw [meaning, only_of_oneValue hv]
    rfl
  · rcases limits_of_bounds hb with ⟨-, he⟩ | ⟨o, rfl, ho⟩
    · obtain ⟨rfl, rfl⟩ := Prod.mk.inj he
      cases hc
    · rw [meaning, Option.bind_some, ho]
      exact Condition.inRange_of_ofBounds ρ t hc

/-- **What a leaf asks for** is the condition it is planned as. -/
theorem Leaf.meaning_of_asks (ρ : Sql.Atom → Bool) (target : String → Target) {config : Config}
    {leaf : Leaf} {c : Condition} (hf : leaf.field ≠ "") (h : leaf.Asks config c) :
    leaf.meaning ρ target config = some (c.truth ρ (target leaf.field)) := by
  rcases h with ⟨hm, rfl⟩ | ⟨hm, -, op, hop, hc⟩
  · rw [meaning, if_neg hf, if_pos hm]
    rfl
  · rw [meaning, if_neg hf, if_neg (fun h => h hm), hop, Option.bind_some]
    exact op.meaning_of_condition ρ _ hc

/-- A leaf without a field, or without values and operator, asks for nothing. -/
theorem Leaf.meaning_eq_none (ρ : Sql.Atom → Bool) (target : String → Target) (config : Config)
    {leaf : Leaf} (h : leaf.field = "" ∨ leaf.members = [] ∧ leaf.operator = "") :
    leaf.meaning ρ target config = none := by
  rcases h with hf | ⟨hm, ho⟩
  · rw [meaning, if_pos hf]
  · have hop : Operator.ofName? leaf.operator = none := by rw [ho]; rfl
    rw [meaning]
    split
    · rfl
    · rw [if_neg (fun h => h hm), hop]
      rfl

end SqlFilter
