/-!
# Binary64 values

A binary64 value is no number, an infinity, or a sign and a magnitude
`significand * 2 ^ exponent`. This module takes the bits of a value apart.
-/

namespace EchoState.Binary64

/-- The number `significand * 2 ^ exponent`. -/
structure Magnitude where
  significand : Nat
  exponent : Int
  deriving DecidableEq, Repr

inductive Value where
  | notANumber
  | infinite (negative : Bool)
  | finite (negative : Bool) (magnitude : Magnitude)
  deriving DecidableEq, Repr

/-- The number of stored bits of a significand. -/
def fractionBits : Nat := 52

/-- The exponent shared by the subnormal values and the smallest normal ones. -/
def leastExponent : Int := -1074

/-- The value that sixty-four bits stand for. -/
def Value.ofBits (bits : Nat) : Value :=
  let negative := bits.testBit 63
  let biased : Nat := (bits >>> fractionBits) % Nat.pow 2 11
  let fraction : Nat := bits % Nat.pow 2 fractionBits
  if biased = Nat.pow 2 11 - 1 then
    if fraction = 0 then .infinite negative else .notANumber
  else if biased = 0 then .finite negative ⟨fraction, leastExponent⟩
  else
    .finite negative
      ⟨Nat.pow 2 fractionBits + fraction, leastExponent + ((biased - 1 : Nat) : Int)⟩

def Value.ofFloat (x : Float) : Value :=
  .ofBits x.toBits.toNat

end EchoState.Binary64
