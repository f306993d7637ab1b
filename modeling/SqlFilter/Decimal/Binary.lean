/-
# What a binary64 number says

The 64 bits of a floating point number are a sign, 11 bits of exponent and 52
bits of fraction.  A finite number is `± mantissa · 2 ^ exponent`.  The reals
that are nearer to it than to its neighbours reach half a unit of the mantissa
to either side, except below a power of two: there the lower neighbour is only
half as far away.  The two ends of this interval belong to the number whose
mantissa is even.
-/

import SqlFilter.Decimal.Power

namespace SqlFilter
namespace Decimal

/-- The magnitude `mantissa · 2 ^ exponent` of a finite number. -/
structure Magnitude where
  mantissa : Nat
  exponent : Int
  deriving DecidableEq, Inhabited

/-- What a binary64 number says. -/
inductive Binary64 where
  | nan
  | infinite (negative : Bool)
  | finite (negative : Bool) (magnitude : Magnitude)
  deriving DecidableEq, Inhabited

/-- Reads the 64 bits, given as a number. -/
def Binary64.ofBits (bits : Nat) : Binary64 :=
  let negative := bits / pow2 63 % 2 == 1
  let exponent : Nat := bits / pow2 52 % pow2 11
  let fraction : Nat := bits % pow2 52
  if exponent = 2047 then
    if fraction = 0 then .infinite negative else .nan
  else if exponent = 0 then .finite negative ⟨fraction, -1074⟩
  else .finite negative ⟨pow2 52 + fraction, (exponent : Int) - 1075⟩

/-- Reads a floating point number. -/
def Binary64.ofFloat (x : Float) : Binary64 :=
  ofBits x.toBits.toNat

namespace Magnitude

/-- Whether the lower neighbour is half as far away as the upper one. -/
def isNarrowBelow (m : Magnitude) : Bool :=
  m.mantissa == pow2 52 && decide (-1074 < m.exponent)

end Magnitude

/-- A magnitude and the interval of the reals that round to it, all over one
denominator. -/
structure Interval where
  lower : Nat
  value : Nat
  upper : Nat
  denominator : Nat
  /-- Whether the ends belong to the interval. -/
  closed : Bool

/-- The interval of a magnitude.  A quarter of a unit of the mantissa is the
common measure of the value and the ends. -/
def Magnitude.interval (m : Magnitude) : Interval :=
  let scale := pow2 (m.exponent - 2).toNat
  { lower := (4 * m.mantissa - if m.isNarrowBelow then 1 else 2) * scale
    value := 4 * m.mantissa * scale
    upper := (4 * m.mantissa + 2) * scale
    denominator := pow2 (2 - m.exponent).toNat
    closed := m.mantissa % 2 == 0 }

end Decimal
end SqlFilter
