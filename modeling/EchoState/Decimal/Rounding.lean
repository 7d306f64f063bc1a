import EchoState.Binary64

/-!
# Decimal rounding

Rounds a binary magnitude to a decimal grid in exact natural-number arithmetic.
-/

namespace EchoState.Decimal

/-- The quotient rounded to the nearest natural number, a half going to the even one. -/
def roundDiv (numerator denominator : Nat) : Nat :=
  let quotient := numerator / denominator
  let twice := 2 * (numerator % denominator)
  if twice < denominator then quotient
  else if twice > denominator then quotient + 1
  else quotient + quotient % 2

end EchoState.Decimal

namespace EchoState.Binary64.Magnitude

def inUnits (magnitude : Magnitude) (place : Int) : Nat × Nat :=
  (magnitude.significand * Nat.pow 2 magnitude.exponent.toNat * Nat.pow 10 (-place).toNat,
    Nat.pow 2 (-magnitude.exponent).toNat * Nat.pow 10 place.toNat)

/-- The nearest multiple of `10 ^ place`, counted in that unit, a half going to the even one. -/
def roundTo (magnitude : Magnitude) (place : Int) : Nat :=
  let (numerator, denominator) := magnitude.inUnits place
  Decimal.roundDiv numerator denominator

end EchoState.Binary64.Magnitude
