/-
# The nearest binary64 number

A positive fraction is rounded to the nearest number of 53 bits, and of two that
are equally near to the one with the even mantissa.  The bits of the result are
those of a number without a sign: below the least exponent the mantissa simply
has fewer bits, and a mantissa that rounds up to `2 ^ 53` carries into the
exponent by itself.
-/

import SqlFilter.Decimal.Binary

namespace SqlFilter
namespace Decimal

/-- The nearest integer to a fraction; a half goes to the even one. -/
def roundHalfEven (num den : Nat) : Nat :=
  let floor := num / den
  let twice := 2 * (num % den)
  if twice < den then floor
  else if den < twice then floor + 1
  else floor + floor % 2

/-- The exponent `e` with `2 ^ e ≤ num / den < 2 ^ (e + 1)`, for positive `num`
and `den`. -/
def binaryExponent (num den : Nat) : Int :=
  let e : Int := num.log2 - den.log2
  if num * pow2 (-e).toNat < den * pow2 e.toNat then e - 1 else e

/-- The bits of infinity. -/
def infinityBits : Nat := 2047 * pow2 52

/-- The bits of the number nearest to a positive fraction; at least
`infinityBits` if the fraction is too large. -/
def nearestBits (num den : Nat) : Nat :=
  let exponent := max (binaryExponent num den - 52) (-1074)
  roundHalfEven (num * pow2 (-exponent).toNat) (den * pow2 exponent.toNat)
    + (exponent + 1074).toNat * pow2 52

/-- The bits of the number nearest to `coefficient · 10 ^ exponent`; none if it
is too large.  Powers far outside the range of binary64 are not computed. -/
def Nearest.bits? (coefficient : Nat) (exponent : Int) : Option Nat :=
  let leading := exponent + (Nat.toDigits 10 coefficient).length
  if coefficient = 0 ∨ leading < -323 then some 0
  else if 310 ≤ leading then none
  else
    let bits := nearestBits (coefficient * pow10 exponent.toNat) (pow10 (-exponent).toNat)
    if bits < infinityBits then some bits else none

/-- The number nearest to `± coefficient · 10 ^ exponent`; none if it is too
large. -/
def nearest? (negative : Bool) (coefficient : Nat) (exponent : Int) : Option Float :=
  (Nearest.bits? coefficient exponent).map fun bits =>
    Float.ofBits (UInt64.ofNat (if negative then bits + pow2 63 else bits))

end Decimal
end SqlFilter
