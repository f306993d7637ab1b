/-
# Operands

What a leaf of a filter compares its field with.  An operand has one of three
shapes, and the shape decides which operators accept it:

| shape | written by the caller as | accepted by |
| --- | --- | --- |
| `scalar v` | one value | every operator but the ranges |
| `range start stop` | bounds, either of which may be absent | the ranges |
| `list items` | several values | a list of one: all but the ranges; of two: the ranges |
-/

import SqlFilter.Value

namespace SqlFilter

/-- The operand of a leaf. -/
inductive Operand where
  | scalar (v : Value)
  /-- A range; an absent bound leaves that side open. -/
  | range (start stop : Option Value)
  | list (items : List Value)
  deriving Inhabited

namespace Operand

/-- A bound that is present and not `NULL`: a `NULL` bound counts as absent. -/
def bound (v : Option Value) : Option Value :=
  v.filter (!·.isNull)

/-- The values an operand binds, in order.  Absent bounds bind nothing. -/
def values : Operand → List Value
  | scalar v => [v]
  | range start stop => (bound start).toList ++ (bound stop).toList
  | list items => items

/-- The values as a custom operation sees them: a range always has two, with
`NULL` in the place of an absent bound. -/
def arguments : Option Operand → List Value
  | none => []
  | some (range start stop) => [Value.ofOption start, Value.ofOption stop]
  | some operand => operand.values

end Operand

end SqlFilter
