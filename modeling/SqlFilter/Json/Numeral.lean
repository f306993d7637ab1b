/-
# Numerals

```text
[-] whole [. fraction] [e [+|-] exponent]
```

Each of the three parts has at least one digit, and `whole` has no zero in front
of another digit.  A numeral without fraction and exponent is an integer, as
long as 64 bits hold it; `-0` and everything else is a floating point number.

A floating point number is read fast: its digits are taken into 64 bits as long
as these hold them, and what they make is scaled by a power of ten
(`Decimal.stepwise?`).  So it is not always the number nearest to the numeral.
-/

import SqlFilter.Decimal.Stepwise
import SqlFilter.Json.Basic
import SqlFilter.Json.Problem

namespace SqlFilter
namespace Json

/-- A number as it is written. -/
structure Numeral where
  negative : Bool
  whole : List Char
  fraction : Option (List Char) := none
  /-- The sign of the exponent, true for minus, and its digits. -/
  exponent : Option (Bool × List Char) := none
  deriving DecidableEq, Inhabited

namespace Numeral

/-- The digits at the front of a text, at least one, and the text after them.
`atEnd` is the problem if the text ends instead. -/
def scanDigits (atEnd : Problem) (text : List Char) :
    Except Problem (List Char × List Char) :=
  match text with
  | [] => .error atEnd
  | c :: cs =>
    if c.isDigit then .ok (c :: cs.takeWhile Char.isDigit, cs.dropWhile Char.isDigit)
    else .error .malformed

/-- The digits before the point: a zero stands alone. -/
def scanWhole (atEnd : Problem) (text : List Char) : Except Problem (List Char × List Char) := do
  let (digits, rest) ← scanDigits atEnd text
  match digits with
  | '0' :: _ :: _ => .error .malformed
  | _ => .ok (digits, rest)

/-- The digits after the point, if there is a point. -/
def scanFraction (atEnd : Problem) (text : List Char) :
    Except Problem (Option (List Char) × List Char) :=
  match text with
  | '.' :: cs => do
    let (digits, rest) ← scanDigits atEnd cs
    .ok (some digits, rest)
  | _ => .ok (none, text)

/-- A sign, if there is one: true for minus. -/
def scanSign : List Char → Bool × List Char
  | '-' :: cs => (true, cs)
  | '+' :: cs => (false, cs)
  | cs => (false, cs)

/-- The exponent, if there is one. -/
def scanExponent (atEnd : Problem) (text : List Char) :
    Except Problem (Option (Bool × List Char) × List Char) :=
  match text with
  | c :: cs =>
    if c = 'e' ∨ c = 'E' then do
      let (negative, cs) := scanSign cs
      let (digits, rest) ← scanDigits atEnd cs
      .ok (some (negative, digits), rest)
    else .ok (none, text)
  | [] => .ok (none, [])

/-- The numeral at the front of a text, and the text after it.  `atEnd` is the
problem if the text ends where a digit has to stand. -/
def scan (atEnd : Problem) (text : List Char) : Except Problem (Numeral × List Char) := do
  let (negative, unsigned) := match text with
    | '-' :: cs => (true, cs)
    | _ => (false, text)
  let (whole, rest) ← scanWhole atEnd unsigned
  let (fraction, rest) ← scanFraction atEnd rest
  let (exponent, rest) ← scanExponent atEnd rest
  return (⟨negative, whole, fraction, exponent⟩, rest)

/-- The number that digits denote. -/
def ofDigits (digits : List Char) : Nat :=
  Nat.ofDigitChars 10 digits 0

/-- Takes digits into a number as long as 64 bits hold it, and leaves the others. -/
def takeUp (n : UInt64) (digits : List Char) : UInt64 × List Char :=
  match digits with
  | [] => (n, [])
  | c :: cs =>
    let next := Nat.ofDigitChars 10 [c] n.toNat
    if h : next < UInt64.size then takeUp (.ofNatLT next h) cs else (n, c :: cs)

/-- The exponent as it is written. -/
def writtenExponent (n : Numeral) : Int :=
  match n.exponent with
  | none => 0
  | some (true, digits) => -ofDigits digits
  | some (false, digits) => ofDigits digits

/-- The significand of a numeral and its exponent.  A digit of `whole` that is left out
counts as a zero.  Those of `fraction` are taken up even so, as far as they go. -/
def decimal (n : Numeral) : UInt64 × Int :=
  let fraction := n.fraction.getD []
  let (high, dropped) := takeUp 0 n.whole
  let (significand, ignored) := takeUp high fraction
  (significand, n.writtenExponent + dropped.length - (fraction.length - ignored.length : Nat))

/-- The numeral as a floating point number; none if it is too large. -/
def toFloat? (n : Numeral) : Option Float :=
  Decimal.stepwise? n.negative n.decimal.1 n.decimal.2

/-- The numeral as an integer, if it is written like one and 64 bits hold it. -/
def toInt? (n : Numeral) : Option Int :=
  match n.fraction, n.exponent with
  | none, none =>
    let m : Int := ofDigits n.whole
    if n.negative then if 0 < m ∧ Int64.minValue.toInt ≤ -m then some (-m) else none
    else if m < UInt64.size then some m else none
  | _, _ => none

/-- The number that a numeral denotes; none if it is too large. -/
def value (n : Numeral) : Option Number :=
  match n.toInt? with
  | some i => some (.int i)
  | none => n.toFloat?.map .float

end Numeral
end Json
end SqlFilter
