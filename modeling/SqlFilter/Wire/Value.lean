/-
# Values and operands as JSON

Values travel as plain JSON.  An integer that fits 64 bits with a sign is an
`int` and every other number a `float`.  Two readings of a value differ in what
they make of an object: `Value.ofJson` takes its text, and `Value.ofPlainJson?`
has no value for it.

An operand is a range if it is written as an object, a list if it is written as
an array, and one value otherwise.
-/

import SqlFilter.Json.Reader
import SqlFilter.Json.Writer
import SqlFilter.Operand

namespace SqlFilter
namespace Value

/-- The value of a number. -/
def ofNumber : Json.Number → Value
  | .int n =>
    if Int64.minValue.toInt ≤ n ∧ n ≤ Int64.maxValue.toInt then int (Int64.ofInt n)
    else match Decimal.nearest? (decide (n < 0)) n.natAbs 0 with
      | some x => float x
      | none => null
  | .float x => float x

mutual

/-- The value of a document; an object has its compact text as value. -/
def ofJson : Json → Value
  | .null => null
  | .bool b => bool b
  | .num n => ofNumber n
  | .str s => str s
  | .arr items => arr (ofJsonItems items)
  | .obj members => str (Json.obj members).compactText

/-- The values of documents. -/
def ofJsonItems : List Json → List Value
  | [] => []
  | j :: js => ofJson j :: ofJsonItems js

end

mutual

/-- The value of a document that holds no object. -/
def ofPlainJson? : Json → Option Value
  | .null => some null
  | .bool b => some (bool b)
  | .num n => some (ofNumber n)
  | .str s => some (str s)
  | .arr items => (ofPlainJsonItems? items).map arr
  | .obj _ => none

/-- The values of documents that hold no object. -/
def ofPlainJsonItems? : List Json → Option (List Value)
  | [] => some []
  | j :: js => do return (← ofPlainJson? j) :: (← ofPlainJsonItems? js)

end

mutual

/-- A value as a document. -/
def toJson : Value → Json
  | null => .null
  | bool b => .bool b
  | int i => .num (.int i.toInt)
  | float x => .num (.float x)
  | str s => .str s
  | arr items => .arr (toJsonItems items)

/-- Values as documents. -/
def toJsonItems : List Value → List Json
  | [] => []
  | v :: vs => toJson v :: toJsonItems vs

end

/-- Reads a value that holds no object.  The whole value is read before an
object in it is refused. -/
def readPlain (w : Json.Written) : Except Json.Problem Value := do
  match ofPlainJson? (← w.readJson Json.maxDepth) with
  | some v => .ok v
  | none => .error .mismatch

end Value

namespace Operand

/-- The bound that an object gives under a name: absent if it is `null`. -/
def boundOfJson (members : List (String × Json)) (name : String) : Option Value :=
  bound ((members.lookup name).map Value.ofJson)

/-- The operand of a document. -/
def ofJson : Json → Operand
  | .obj members => range (boundOfJson members "start") (boundOfJson members "end")
  | .arr items => list (Value.ofJsonItems items)
  | j => scalar (Value.ofJson j)

end Operand
end SqlFilter
