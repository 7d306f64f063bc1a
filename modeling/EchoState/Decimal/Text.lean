import EchoState.Decimal.Shortest
import EchoState.Scalar

/-!
# Decimal text

How numbers are written. The general form has the fewest digits that read back and changes to an
exponent outside the decades from 10^-4 to 10^5; the positional form has a fixed number of places
and never an exponent. Both keep the sign of a negative zero.
-/

namespace EchoState.Decimal

def zeros (count : Nat) : String :=
  "".pushn '0' count

def signed (negative : Bool) (text : String) : String :=
  if negative then "-" ++ text else text

/-- A coefficient written with its decimal point: `places` of its digits follow the point. -/
def pointed (coefficient : Nat) (places : Nat) : String :=
  if places = 0 then toString coefficient
  else
    let fraction := toString (coefficient % Nat.pow 10 places)
    toString (coefficient / Nat.pow 10 places) ++ "." ++
      zeros (places - fraction.length) ++ fraction

namespace Digits

def plain (digits : Digits) : String :=
  pointed (digits.coefficient * Nat.pow 10 digits.exponent.toNat) (-digits.exponent).toNat

def exponentText (power : Int) : String :=
  let size := toString power.natAbs
  "e" ++ (if power < 0 then "-" else "+") ++ zeros (2 - size.length) ++ size

def scientific (digits : Digits) : String :=
  pointed digits.coefficient (digits.text.length - 1) ++ exponentText digits.leading

/-- Plain text for the decades from 10^-4 to 10^5, and an exponent for all others. -/
def general (digits : Digits) : String :=
  if digits.leading < -4 ∨ 6 ≤ digits.leading then digits.scientific else digits.plain

end Digits

end EchoState.Decimal

namespace EchoState.Binary64

/-- The text of a value, given how its magnitude is written. -/
def Value.textWith (magnitudeText : Magnitude → String) : Value → String
  | .notANumber => "NaN"
  | .infinite true => "-Inf"
  | .infinite false => "+Inf"
  | .finite negative magnitude => Decimal.signed negative (magnitudeText magnitude)

namespace Magnitude

def general (magnitude : Magnitude) : String :=
  if magnitude.significand = 0 then "0" else magnitude.shortest.general

/-- The magnitude with a fixed number of places, or with its fewest digits when it is negative. -/
def positional (places : Int) (magnitude : Magnitude) : String :=
  if places < 0 then
    if magnitude.significand = 0 then "0" else magnitude.shortest.plain
  else Decimal.pointed (magnitude.roundTo (-places)) places.toNat

end Magnitude

end EchoState.Binary64

namespace EchoState

instance : Legible Float where
  general x := (Binary64.Value.ofFloat x).textWith Binary64.Magnitude.general
  positional places x := (Binary64.Value.ofFloat x).textWith (Binary64.Magnitude.positional places)

end EchoState
