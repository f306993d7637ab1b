/-
# How a decimal is laid out

A decimal is written either positionally, with a point and at least one digit on
either side of it, or with an exponent.  A `Style` says where the one way ends
and the other begins, and how the exponent looks:

| style | positional | exponent |
| --- | --- | --- |
| `jsonStyle` | first digit from `10^-5` to `10^15` | `1e+16`, `1.25e-6` |
| `inspectStyle` | first digit from `10^-4` to `10^15` | `1e16`, `1.25e-5` |
-/

import SqlFilter.Decimal.Shortest

namespace SqlFilter
namespace Decimal

/-- A way of writing decimals. -/
structure Style where
  /-- The exponents of the first digit that are written positionally. -/
  least : Int
  greatest : Int
  /-- Whether a positive exponent has a sign. -/
  plus : Bool
  tie : Tie

/-- Numbers in JSON text. -/
def jsonStyle : Style := ⟨-5, 15, true, .even⟩

/-- Numbers in the text that shows a value to a programmer. -/
def inspectStyle : Style := ⟨-4, 15, false, .up⟩

/-- The digits with a point so that `whole` of them stand before it. -/
def positional (digits : List Char) (whole : Int) : List Char :=
  if whole ≤ 0 then '0' :: '.' :: List.replicate (-whole).toNat '0' ++ digits
  else if digits.length ≤ whole.toNat then
    digits ++ List.replicate (whole.toNat - digits.length) '0' ++ ['.', '0']
  else digits.take whole.toNat ++ '.' :: digits.drop whole.toNat

/-- The digits with a point after the first, and the exponent of the first. -/
def scientific (plus : Bool) (digits : List Char) (exponent : Int) : List Char :=
  let mantissa := match digits with
    | first :: second :: rest => first :: '.' :: second :: rest
    | _ => digits
  let sign := if exponent < 0 then ['-'] else if plus then ['+'] else []
  mantissa ++ 'e' :: sign ++ Nat.toDigits 10 exponent.natAbs

/-- A positive decimal as text. -/
def Scaled.write (style : Style) (s : Scaled) : List Char :=
  let digits := Nat.toDigits 10 s.coefficient
  let exponent := s.exponent + digits.length - 1
  if style.least ≤ exponent ∧ exponent ≤ style.greatest then positional digits (exponent + 1)
  else scientific style.plus digits exponent

/-- A magnitude as text. -/
def Magnitude.write (style : Style) (m : Magnitude) : List Char :=
  if m.mantissa = 0 then ['0', '.', '0'] else (shortest style.tie m).write style

/-- A finite number as text. -/
def writeFinite (style : Style) (negative : Bool) (m : Magnitude) : List Char :=
  if negative then '-' :: m.write style else m.write style

end Decimal
end SqlFilter
