import EchoState.Proofs.Scalar.Extent

/-!
# What a finite distance says of its samples

Under every norm but that of order infinity, a distance is finite only if every gap is: an infinite
gap makes the scale, the sum or the power infinite, and a gap that is no number is never lost. The
running maximum of the norm of order infinity passes over gaps that are no number, so there a finite
distance says of each gap only that it is not infinite.
-/

namespace EchoState

/-- What the distances under a norm say of the gaps: they are from zero up unless they are no
numbers, and finite only if every gap is. -/
structure Distances.ShowGaps {α : Type} [Scalar α] [Distances α] (p : α) : Prop where
  neverNegative : ∀ {s t : List α}, s.length = t.length →
    NeverNegative (Distances.between p s t)
  finite_gaps : ∀ {s t : List α}, s.length = t.length →
    Scalar.finite (Distances.between p s t) → ∀ gap ∈ Distance.gaps s t, Scalar.finite gap = true

namespace Distance

open Binary64

section Gaps

variable {s t : List Float}

theorem gaps_eq_map_abs (s t : List Float) :
    gaps s t = (List.zipWith (· - ·) s t).map Scalar.abs := by
  rw [gaps, List.map_zipWith]
  congr 1
  funext x y
  exact abs_sub_comm y x

/-- A root of a sum of squares is finite only if every difference is. -/
theorem finite_of_finite_scaledRoot {scale squares : Float} (underWay : UnderWay scale squares)
    {differences : List Float} (root : Scalar.finite (scaledRoot scale squares differences)) :
    ∀ x ∈ differences, Scalar.finite x = true := by
  have numbers : ∀ x ∈ differences, Scalar.isNaN x = false := by
    intro x listed
    by_contra none
    have lost := isNaN_scaledRoot scale squares ⟨x, listed, by simpa using none⟩
    rw [Scalar.not_finite_of_isNaN lost] at root
    cases root
  induction differences generalizing scale squares with
  | nil => nofun
  | cons x rest ih =>
      rw [List.forall_mem_cons] at numbers ⊢
      rcases underWay.scaledRoot_cons numbers.1 numbers.2 with
        ⟨sizeFinite, scale', squares', onward, same⟩ | ⟨-, infinite⟩
      · rw [same] at root
        exact ⟨finite_of_finite_abs sizeFinite, ih onward root numbers.2⟩
      · rw [infinite] at root
        exact absurd root Scalar.not_finite_inf

theorem finite_of_finite_euclidean (distance : Scalar.finite (euclidean s t)) :
    ∀ gap ∈ gaps s t, Scalar.finite gap = true := by
  have differences := finite_of_finite_scaledRoot .start distance
  rw [gaps_eq_map_abs, List.forall_mem_map]
  exact fun x listed => finite_abs (differences x listed)

theorem finite_of_finite_cityBlock (distance : Scalar.finite (cityBlock s t)) :
    ∀ gap ∈ gaps s t, Scalar.finite gap = true :=
  (Scalar.finite_of_foldl_add (.of_le Scalar.zero_le_zero) neverNegative_of_mem_gaps distance).2

/-- Powers with an exponent above zero are finite only of what is finite. -/
def PowersKeepExtent : Prop :=
  ∀ x y : Float, NeverNegative x → Scalar.lt 0 y → Scalar.finite (Scalar.pow x y) →
    Scalar.finite x = true

/-- What is assumed of powers under a norm: nothing, if it is computed without them. -/
def PowersTrusted (p : Float) : Prop :=
  PowerFree p ∨ PowersNeverNegative ∧ PowersKeepExtent

theorem PowersTrusted.neverNegative {p : Float} (trusted : PowersTrusted p) :
    PowerFree p ∨ PowersNeverNegative :=
  trusted.imp_right And.left

theorem finite_of_finite_minkowski {p : Float} (signs : PowersNeverNegative)
    (extents : PowersKeepExtent) (order : Scalar.lt 0 p) (inverse : Scalar.lt 0 (1 / p))
    (distance : Scalar.finite (minkowski p s t)) : ∀ gap ∈ gaps s t, Scalar.finite gap = true := by
  have zero : NeverNegative (0 : Float) := .of_le Scalar.zero_le_zero
  have powers : ∀ gap ∈ gaps s t, NeverNegative (Scalar.pow gap p) := fun gap isGap =>
    signs gap p (neverNegative_of_mem_gaps gap isGap) (Scalar.le_of_lt order)
  have total := extents _ _ (NeverNegative.foldl zero powers) inverse distance
  intro gap isGap
  exact extents gap p (neverNegative_of_mem_gaps gap isGap) order
    ((Scalar.finite_of_foldl_add zero powers total).2 gap isGap)

/-- A running maximum is finite exactly when none of what it has met is infinite. -/
theorem finite_supremum_iff :
    Scalar.finite (supremum s t) ↔
      ∀ gap ∈ gaps s t, Scalar.finite gap = true ∨ Scalar.isNaN gap = true := by
  have zero : Scalar.finite (0 : Float) = true := MeasuredScalar.finite_zero
  have nonneg : Scalar.le 0 (supremum s t) := largest_nonneg Scalar.zero_le_zero _
  constructor
  · intro distance gap isGap
    rw [← Bool.not_eq_false (Scalar.isNaN gap), or_iff_not_imp_right, not_not]
    intro number
    exact Scalar.finite_of_nonneg_of_le (neverNegative_of_mem_gaps gap isGap number)
      ((le_largest_of_number (Scalar.isNaN_of_finite zero)).2 gap isGap number) distance
  · intro each
    have found : supremum s t = 0 ∨ supremum s t ∈ gaps s t := largest_eq_or_mem 0 (gaps s t)
    rcases found with same | listed
    · rw [same]
      exact zero
    · refine (each _ listed).resolve_right ?_
      rw [Scalar.number_of_nonneg nonneg]
      exact Bool.false_ne_true

/-- Under a norm of finite order a distance is finite only if every gap is. -/
theorem finite_of_finite_ofOrder {p : Float} (trusted : PowersTrusted p)
    (number : Scalar.isNaN p = false) (large : Scalar.lt p 1 = false)
    (other : Scalar.eq p Scalar.inf = false) (distance : Scalar.finite (ofOrder p s t)) :
    ∀ gap ∈ gaps s t, Scalar.finite gap = true := by
  unfold ofOrder at distance
  split at distance
  · rename_i empty
    rw [List.isEmpty_iff.mp empty]
    nofun
  split at distance
  · exact finite_of_finite_euclidean distance
  rename_i notTwo
  split at distance
  · exact finite_of_finite_cityBlock distance
  rename_i notOne
  rw [if_neg (by rw [other]; exact Bool.false_ne_true)] at distance
  obtain ⟨order, inverse⟩ := exponents_pos number large other
  rcases trusted with (two | one | inf) | ⟨signs, extents⟩
  · exact absurd two notTwo
  · exact absurd one notOne
  · rw [other] at inf
    cases inf
  · exact finite_of_finite_minkowski signs extents order inverse distance

end Gaps

end Distance

theorem Distances.showGaps_of_trusted {p : Float} (trusted : Distance.PowersTrusted p)
    (number : Scalar.isNaN p = false) (large : Scalar.lt p 1 = false)
    (other : Scalar.eq p Scalar.inf = false) : Distances.ShowGaps p where
  neverNegative _ := Distance.neverNegative_ofOrder trusted.neverNegative number large _ _
  finite_gaps _ := Distance.finite_of_finite_ofOrder trusted number large other

end EchoState
