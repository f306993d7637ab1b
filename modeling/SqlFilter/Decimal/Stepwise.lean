/-
# Reading a decimal in two steps

A decimal `significand · 10 ^ exponent` is rounded twice if it is read fast: once when the
significand becomes a binary64 number, and once more when this is multiplied or divided by
the number nearest to the power of ten.  The second step does not make up for the first, so
the result is at times the neighbour of the nearest number.

| decimal | nearest number | in two steps |
| --- | --- | --- |
| `5e-1` | `0.5` | `0.5` |
| `9745365320034685e-14` | `97.45365320034685` | its neighbour in the last place |
| `1e309` | too large | too large |
| `17976931348623157e292` | `1.7976931348623157e308` | the same |

Powers above `10 ^ 308` are out of the range of binary64.  No multiple of such a power is
in it but zero, and a fraction of such a power is divided by `10 ^ 308` again and again.
-/

import SqlFilter.Decimal.Rounding

namespace SqlFilter
namespace Decimal

/-- The greatest power of ten in the range of binary64. -/
def greatestPower : Nat := 308

/-- The binary64 number nearest to a power of ten. -/
def nearestPower (e : Nat) : Float :=
  .ofBits (.ofNat (nearestBits (pow10 e) 1))

/-- A number times a power of ten; none if it is too large. -/
def scaleUp? (x : Float) (e : Nat) : Option Float :=
  if e ≤ greatestPower then
    let y := x * nearestPower e
    if y.isInf then none else some y
  else if x == 0 then some x
  else none

/-- A number over a power of ten. -/
def scaleDown (x : Float) (e : Nat) : Float :=
  if e ≤ greatestPower then x / nearestPower e
  else if x == 0 then x
  else scaleDown (x / nearestPower greatestPower) (e - greatestPower)
termination_by e
decreasing_by exact Nat.sub_lt (by omega) (by decide)

/-- The number `± significand · 10 ^ exponent`, rounded at each of the two steps; none if it
is too large. -/
def stepwise? (negative : Bool) (significand : UInt64) (exponent : Int) : Option Float :=
  let x := significand.toFloat
  let magnitude? :=
    if exponent < 0 then some (scaleDown x exponent.natAbs) else scaleUp? x exponent.natAbs
  magnitude?.map fun y => if negative then -y else y

end Decimal
end SqlFilter
