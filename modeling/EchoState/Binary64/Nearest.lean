import EchoState.Decimal.Rounding

/-!
# The nearest binary64 number

Rounds a magnitude to a binary64 number, a half going to the even neighbour. The bits of a positive
number count its units in the last place from zero on, through every change of the unit, so one sum
gives them: the place of the unit in the upper bits, the rounded significand added below.
-/

namespace EchoState.Binary64

def infinityBits : Nat := (Nat.pow 2 11 - 1) * Nat.pow 2 fractionBits

namespace Magnitude

/-- The power of two of the unit in the last place of the nearest number; zero has the least one. -/
def unitPlace (magnitude : Magnitude) : Int :=
  if magnitude.significand = 0 then leastExponent
  else max leastExponent (magnitude.exponent + magnitude.significand.log2 - fractionBits)

def roundedSignificand (magnitude : Magnitude) : Nat :=
  let excess := magnitude.unitPlace - magnitude.exponent
  Decimal.roundDiv (magnitude.significand * Nat.pow 2 (-excess).toNat) (Nat.pow 2 excess.toNat)

/-- The bits of the nearest number; beyond the largest one they are those of infinity. -/
def nearestBits (magnitude : Magnitude) : Nat :=
  min infinityBits
    ((magnitude.unitPlace - leastExponent).toNat * Nat.pow 2 fractionBits +
      magnitude.roundedSignificand)

def toFloat (magnitude : Magnitude) : Float :=
  Float.ofBits magnitude.nearestBits.toUInt64

end Magnitude

end EchoState.Binary64
