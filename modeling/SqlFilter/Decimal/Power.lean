/-
# Powers of two and of ten

The scales of binary and of decimal numbers.
-/

namespace SqlFilter
namespace Decimal

/-- A power of two. -/
def pow2 (e : Nat) : Nat := Nat.pow 2 e

/-- A power of ten. -/
def pow10 (e : Nat) : Nat := Nat.pow 10 e

end Decimal
end SqlFilter
