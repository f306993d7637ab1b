/-
# Conditions

A `Condition` is what one leaf asks of its field, once all names are looked up
and all counts are checked.  Writing a condition (`Condition.write`) cannot
fail, and binds exactly the values it draws placeholders for.

`Operator.condition` gives the condition of an operator and an operand.  Both
bounds of a range are strict, and a range with one bound is an ordinary
comparison:

| operator | `start` only | `stop` only | both |
| --- | --- | --- | --- |
| `between` | `f > start` | `f < stop` | `( f > start AND f < stop )` |
| `notBetween` | `f < start` | `f > stop` | `( f < start OR f > stop )` |
-/

import SqlFilter.Dialect.Basic
import SqlFilter.Filter.Basic

namespace SqlFilter

/-- A piece of SQL and the values of its placeholders, in their order. -/
structure Compiled where
  sql : String := ""
  values : List Value := []
  deriving Inhabited

/-- Whether nothing is asked for. -/
def Compiled.isEmpty (c : Compiled) : Bool :=
  c.sql.isEmpty

/-- What a leaf asks of its field. -/
inductive Condition where
  | compare (c : Comparison) (v : Value)
  | pattern (p : Pattern) (negated : Bool) (v : Value)
  /-- Strictly between two bounds or, negated, strictly outside them. -/
  | between (negated : Bool) (start stop : Value)
  | member (items : List Value)

/-- The comparison with the lower bound of a range, the connective, and the
comparison with the upper bound. -/
def rangeSides (negated : Bool) : Comparison × Glue × Comparison :=
  if negated then (.less, .or, .greater) else (.greater, .and, .less)

/-- The bounds of a range as a condition; `none` if there is no bound. -/
def Condition.ofBounds (negated : Bool) : Option Value → Option Value → Option Condition
  | some start, some stop => some (.between negated start stop)
  | some start, none => some (.compare (rangeSides negated).1 start)
  | none, some stop => some (.compare (rangeSides negated).2.2 stop)
  | none, none => none

namespace Condition

variable {σ : Type}

/-- The comparison of a field with the next placeholder. -/
def writeComparison (field : String) (c : Comparison) : Drawing String := do
  let mark ← Drawing.placeholder
  return field ++ " " ++ c.symbol ++ " " ++ mark

/-- A condition on a field as SQL, from the state before it. -/
def write (d : Dialect σ) (s : σ) (field : FieldExpr) : Condition → Drawing Compiled
  | compare c v => do return ⟨← writeComparison field.sql c, [v]⟩
  | pattern p negated v => do return ⟨← d.pattern s p field.sql negated field.isJson, [v]⟩
  | between negated start stop => do
    let (lower, glue, upper) := rangeSides negated
    let first ← writeComparison field.sql lower
    let second ← writeComparison field.sql upper
    return ⟨"( " ++ first ++ glue.separator ++ second ++ " )", [start, stop]⟩
  | member items => do return ⟨← d.member s field.sql items.length, items⟩

end Condition

namespace Operator

/-- The one value of an operator that takes one; otherwise how many values there
are. -/
def oneValue : Option Operand → Except Nat Value
  | none => .error 0
  | some (.scalar v) => .ok v
  | some (.list [v]) => .ok v
  | some (.list items) => .error items.length
  | some (.range start stop) => .error (Operand.range start stop).values.length

/-- The bounds of a range; otherwise how many values there are. -/
def bounds : Option Operand → Except Nat (Option Value × Option Value)
  | none => .ok (none, none)
  | some (.range start stop) => .ok (Operand.bound start, Operand.bound stop)
  | some (.list [start, stop]) => .ok (Operand.bound (some start), Operand.bound (some stop))
  | some (.list items) => .error items.length
  | some (.scalar _) => .error 1

/-- The condition of an operator on an operand; otherwise how many values there
are. -/
def condition? (op : Operator) (operand : Option Operand) : Except Nat Condition :=
  match op with
  | compare c => (oneValue operand).map (.compare c)
  | pattern p negated => (oneValue operand).map (.pattern p negated)
  | between negated => do
    let (start, stop) ← bounds operand
    match Condition.ofBounds negated start stop with
    | some condition => .ok condition
    | none => .error 0

/-- The condition of an operator on an operand. -/
def condition (op : Operator) (operand : Option Operand) : Except CompileError Condition :=
  (op.condition? operand).mapError (.wrongCount op.name op.arity)

end Operator
end SqlFilter
