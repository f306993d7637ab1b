/-
# The shortest decimal

Many decimals lie in the interval of the reals that round to one binary number.
`shortest` finds one with the fewest digits and, among those, the one nearest to
the number.  It tries one digit, then two, up to seventeen, which always
suffice.  On the grid of the decimals with so many digits only the two
neighbours of the number have to be looked at: if any point of the grid lies in
the interval, one of the two does.
-/

import SqlFilter.Decimal.Binary

namespace SqlFilter
namespace Decimal

/-- The decimal `coefficient · 10 ^ exponent`. -/
structure Scaled where
  coefficient : Nat
  exponent : Int
  deriving DecidableEq, Inhabited

/-- Which neighbour is taken when both are equally near. -/
inductive Tie where
  /-- The one with the even last digit. -/
  | even
  /-- The greater one. -/
  | up
  deriving DecidableEq

/-- The number of decimal digits. -/
def digitCount (n : Nat) : Nat :=
  (Nat.toDigits 10 n).length

/-- The least `k` with `num / den < 10 ^ k`, for positive `num` and `den`. -/
def leadingExponent (num den : Nat) : Int :=
  let k : Int := digitCount num - digitCount den
  if num * pow10 (-k).toNat < den * pow10 k.toNat then k else k + 1

/-- The point of the grid of multiples of `10 ^ e` that lies in the interval and
is nearest to the value, if there is one. -/
def onGrid (tie : Tie) (i : Interval) (e : Int) : Option Nat :=
  let up := pow10 (-e).toNat
  let step := i.denominator * pow10 e.toNat
  let value := i.value * up
  let inside (d : Nat) : Bool :=
    let point := d * step
    if i.closed then decide (i.lower * up ≤ point ∧ point ≤ i.upper * up)
    else decide (i.lower * up < point ∧ point < i.upper * up)
  let floor := value / step
  let below := value - floor * step
  let above := (floor + 1) * step - value
  match inside floor, inside (floor + 1) with
  | false, false => none
  | true, false => some floor
  | false, true => some (floor + 1)
  | true, true =>
    if below < above then some floor
    else if above < below then some (floor + 1)
    else match tie with
      | .even => some (if floor % 2 = 0 then floor else floor + 1)
      | .up => some (floor + 1)

/-- Tries `digits` digits, then more, `tries` times in all. -/
def search (tie : Tie) (i : Interval) (leading : Int) : (tries digits : Nat) → Scaled
  | 0, digits => ⟨i.value / i.denominator, leading - digits⟩
  | tries + 1, digits =>
    match onGrid tie i (leading - digits) with
    | some d => ⟨d, leading - digits⟩
    | none => search tie i leading tries (digits + 1)

/-- Moves the zeros at the end of the coefficient into the exponent, `limit` of
them at most. -/
def stripZeros : (limit : Nat) → Scaled → Scaled
  | 0, s => s
  | limit + 1, s =>
    if s.coefficient % 10 = 0 then stripZeros limit ⟨s.coefficient / 10, s.exponent + 1⟩ else s

/-- **The shortest decimal** that rounds to a positive magnitude, and of those
the nearest. -/
def shortest (tie : Tie) (m : Magnitude) : Scaled :=
  let i := m.interval
  stripZeros 17 (search tie i (leadingExponent i.value i.denominator) 17 1)

end Decimal
end SqlFilter
