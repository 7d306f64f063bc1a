import EchoState.Scalar.Float

/-!
# Distances between samples

Reservoirs and trajectories measure the distance of two samples of one length under a norm, and
leave how it is computed to `Distances`. The running scalar computes it as follows. The largest gap
passes over gaps that are no number; the Euclidean distance rescales as it goes, so that neither
very large nor very small differences leave the range of the scalar; every other norm is computed by
powers.
-/

namespace EchoState

/-- A way to measure the distance of two samples of one length. -/
class Distances (α : Type) where
  between : α → List α → List α → α

namespace Distance

variable {α : Type} [Scalar α]

def gaps (s t : List α) : List α :=
  List.zipWith (fun x y => Scalar.abs (y - x)) s t

/-- The largest gap, found by a running maximum from zero. -/
def supremum (s t : List α) : α :=
  (gaps s t).foldl (fun best gap => if Scalar.lt best gap then gap else best) 0

def cityBlock (s t : List α) : α :=
  (gaps s t).foldl (· + ·) 0

/-- The root of a sum of squares kept as `scale * sqrt squares`, where no term exceeds the
scale. -/
def scaledRoot (scale squares : α) : List α → α
  | [] => if Scalar.eq scale Scalar.inf then Scalar.inf else scale * Scalar.sqrt squares
  | difference :: rest =>
      let size := Scalar.abs difference
      if Scalar.isZero difference then scaledRoot scale squares rest
      else if Scalar.isNaN size then Scalar.nan
      else if Scalar.lt scale size then
        let shrink := scale / size
        scaledRoot size (1 + squares * shrink * shrink) rest
      else
        let share := size / scale
        scaledRoot scale (squares + share * share) rest

def euclidean (s t : List α) : α :=
  scaledRoot 0 1 (List.zipWith (· - ·) s t)

/-- The root of order `p` of the sum of the powers of order `p` of the gaps. -/
def minkowski (p : α) (s t : List α) : α :=
  Scalar.pow ((gaps s t).foldl (fun total gap => total + Scalar.pow gap p) 0) (1 / p)

/-- The distance under the norm of order `p`; empty samples have distance zero. -/
def ofOrder (p : α) (s t : List α) : α :=
  if s.isEmpty then 0
  else if Scalar.eq p (Scalar.natural 2) then euclidean s t
  else if Scalar.eq p 1 then cityBlock s t
  else if Scalar.eq p Scalar.inf then supremum s t
  else minkowski p s t

end Distance

instance : Distances Float where
  between := Distance.ofOrder

end EchoState
