import EchoState.Binary64.Nearest

/-!
# Elementary functions

The hyperbolic tangent and its inverse on binary64 numbers. The tangent is computed in binary64
arithmetic: by a quotient of polynomials near zero, from the exponential elsewhere, and as one from
twenty on, so that it is fast and off by no more than a unit or two in the last place. The inverse
is only needed to choose a bias: its argument is a dyadic fraction, so its series is summed over
natural numbers that count units of 2^-128, and the result is rounded once.
-/

namespace EchoState.Elementary

open Binary64

def twoPower (exponent : UInt64) : Float :=
  Float.ofBits ((1023 + exponent) <<< 52)

/-- The leading bits of the logarithm of two, few enough that its small multiples are exact. -/
def logTwoHigh : Float := 0.693147180369123816490

/-- What is left of the logarithm of two. -/
def logTwoLow : Float := 1.90821492927058770002e-10

/-- The polynomial in the squared remainder that the exponential takes away from it. -/
def evenPart (t : Float) : Float :=
  t * (0.166666666666666657415 + t * (-0.00277777777770155933842 + t *
    (0.0000661375632143793436117 + t * (-0.00000165339022054652515390 + t *
      0.0000000413813679705723846039))))

/-- The exponential of a number from 0 to 700: the nearest multiple of the logarithm of two is split
off as a power of two, and the remainder `r = high - low` goes through `1 + r + r c / (2 - c)`. -/
def exp (x : Float) : Float :=
  let power := (x * 1.44269504088896338700 + 0.5).toUInt64
  let high := x - power.toFloat * logTwoHigh
  let low := power.toFloat * logTwoLow
  let r := high - low
  let c := r - evenPart (r * r)
  (1 - ((low - r * c / (2 - c)) - high)) * twoPower power

/-- The tangent of a number below five eighths: the number plus its third power times a quotient of
polynomials in its square. -/
def tanhNearZero (x : Float) : Float :=
  let s := x * x
  let numerator :=
    (-0.964399179425052238628 * s + -99.2877231001918586564) * s + -1614.68768441708447952
  let denominator :=
    ((s + 112.811678491632931402) * s + 2235.48839060100448583) * s + 4844.06305325125486048
  x + x * s * numerator / denominator

def tanh (x : Float) : Float :=
  let size := x.abs
  if size ≥ 0.625 then
    let result := if size < 20 then 1 - 2 / (exp (2 * size) + 1) else 1
    if x < 0 then -result else result
  else if x == 0 then x
  else tanhNearZero x

/-- The number of binary places of the series. -/
def places : Nat := 128

def unit : Nat := Nat.pow 2 places

/-- The size below which the inverse tangent changes nothing. -/
def nearZero : Float := Float.ofScientific 1 true 9

/-- The end of the series of the inverse tangent divided by its argument, in powers of the squared
argument: `1 / (2 j + 1) + w * (1 / (2 j + 3) + ...)`. -/
def atanhTail (w : Nat) : Nat → Nat → Nat
  | 0, _ => 0
  | terms + 1, j => unit / (2 * j + 1) + (w * atanhTail w terms (j + 1)) >>> places

/-- The inverse tangent of a fraction up to a third, by its series. -/
def atanhSeries (v : Nat) : Nat :=
  (v * atanhTail ((v * v) >>> places) 48 0) >>> places

/-- Half the logarithm of two, which is the inverse tangent of a third. -/
def halfLogTwo : Nat :=
  atanhSeries (unit / 3)

/-- The inverse tangent of `(p - q) / (p + q)`, which is half the logarithm of `p / q`, for `p`
above `q`. The quotient is first brought near one by a power of two. -/
def halfLog (p q : Nat) : Nat :=
  let power := (p / q).log2
  let power := if 3 * q * Nat.pow 2 power < 2 * p then power + 1 else power
  let scaled := q * Nat.pow 2 power
  if scaled ≤ p then power * halfLogTwo + atanhSeries ((p - scaled) * unit / (p + scaled))
  else power * halfLogTwo - atanhSeries ((scaled - p) * unit / (scaled + p))

/-- The inverse tangent of a magnitude below one. -/
def atanhMagnitude (x : Magnitude) : Magnitude :=
  let one := Nat.pow 2 (-x.exponent).toNat
  ⟨halfLog (one + x.significand) (one - x.significand), -places⟩

/-- The inverse hyperbolic tangent; outside the interval from -1 to 1 it is no number. -/
def atanh (x : Float) : Float :=
  match Value.ofFloat x with
  | .notANumber => x
  | .infinite _ => 0.0 / 0.0
  | .finite negative size =>
      if x.abs < nearZero then x
      else if 1 < x.abs then 0.0 / 0.0
      else
        let result := if x.abs < 1 then (atanhMagnitude size).toFloat else 1.0 / 0.0
        if negative then -result else result

end EchoState.Elementary
