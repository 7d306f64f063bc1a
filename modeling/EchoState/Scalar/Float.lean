import EchoState.Scalar
import EchoState.Scalar.Elementary

/-!
# The running scalar

Binary64 numbers as a scalar. Every operation but the power unfolds to natural-number arithmetic,
so closed statements about running reservoirs can be evaluated in the logic.
-/

namespace EchoState

instance : Scalar Float where
  zero := 0.0
  one := 1.0
  add := Float.add
  sub := Float.sub
  mul := Float.mul
  div := Float.div
  neg := Float.neg
  lt x y := decide (x < y)
  le x y := decide (x ≤ y)
  eq x y := x == y
  isNaN := Float.isNaN
  isInf := Float.isInf
  abs := Float.abs
  sqrt := Float.sqrt
  tanh := Elementary.tanh
  atanh := Elementary.atanh
  pow := Float.pow
  inf := 1.0 / 0.0
  nan := 0.0 / 0.0
  natural := Float.ofNat

end EchoState
