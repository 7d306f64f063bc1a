import EchoState.Decimal.Rounding

/-!
# Shortest digits

The fewest decimal digits that read back as a given binary magnitude. The reals that round to the
magnitude form an interval; the coarsest decimal grid with a point in that interval gives the
digits, and of two such points the nearer one is taken. All comparisons are exact.
-/

namespace EchoState.Decimal

/-- The decimal number `coefficient * 10 ^ exponent`. -/
structure Digits where
  coefficient : Nat
  exponent : Int
  deriving DecidableEq, Repr

namespace Digits

def text (digits : Digits) : String :=
  toString digits.coefficient

def leading (digits : Digits) : Int :=
  digits.exponent + digits.text.length - 1

end Digits

end EchoState.Decimal

namespace EchoState.Binary64.Magnitude

/-- The reals that round to a magnitude, in quarters of its unit in the last place. The ends
belong to the interval exactly when the significand is even. -/
structure Interval where
  low : Nat
  middle : Nat
  high : Nat
  closed : Bool

/-- The interval around a magnitude: half a unit to each side, but only a quarter below a power of
two whose lower neighbour has a finer unit. -/
def interval (magnitude : Magnitude) : Interval where
  low :=
    if magnitude.significand = Nat.pow 2 fractionBits ∧ leastExponent < magnitude.exponent then
      4 * magnitude.significand - 1
    else 4 * magnitude.significand - 2
  middle := 4 * magnitude.significand
  high := 4 * magnitude.significand + 2
  closed := magnitude.significand % 2 = 0

/-- The point of the grid of multiples of `10 ^ place` that rounds to the magnitude and lies
nearest to it, counted in that unit. -/
def gridPoint? (magnitude : Magnitude) (place : Int) : Option Nat :=
  let around := magnitude.interval
  let (quarter, unit) := Magnitude.inUnits ⟨1, magnitude.exponent - 2⟩ place
  let below := around.middle * quarter / unit
  let rest := around.middle * quarter % unit
  let reachesDown :=
    if around.closed then decide (around.low * quarter ≤ below * unit)
    else decide (around.low * quarter < below * unit)
  let reachesUp :=
    if around.closed then decide ((below + 1) * unit ≤ around.high * quarter)
    else decide ((below + 1) * unit < around.high * quarter)
  match reachesDown, reachesUp with
  | false, false => none
  | true, false => some below
  | false, true => some (below + 1)
  | true, true =>
      if 2 * rest < unit ∨ (2 * rest = unit ∧ below % 2 = 0) then some below else some (below + 1)

/-- The first grid with a point, trying finer and finer ones. -/
def search (magnitude : Magnitude) : Nat → Int → Decimal.Digits
  | 0, place => ⟨magnitude.roundTo place, place⟩
  | tries + 1, place =>
      match magnitude.gridPoint? place with
      | some point => ⟨point, place⟩
      | none => magnitude.search tries (place - 1)

/-- A power of ten above a magnitude, from the length of its binary form. -/
def ceilingPlace (magnitude : Magnitude) : Int :=
  ((magnitude.significand.log2 + 1 + magnitude.exponent) * 30103).fdiv 100000 + 1

/-- The fewest digits that read back as the magnitude; seventeen always do. -/
def shortest (magnitude : Magnitude) : Decimal.Digits :=
  magnitude.search 20 magnitude.ceilingPlace

end EchoState.Binary64.Magnitude
