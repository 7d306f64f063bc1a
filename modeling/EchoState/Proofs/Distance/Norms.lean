import EchoState.Proofs.Distance.Euclidean
import EchoState.Proofs.Distance.Supremum
import EchoState.Proofs.Scalar.Metric

/-!
# Distances under every norm

The two differences of two values are of one size, so the distance of two samples of one length does
not depend on their order, whatever the norm and whatever the entries. A distance that is a number
is from zero up; under the norms that are computed by powers this rests on the powers.
-/

namespace EchoState

/-- The value is from zero up unless it is no number. -/
def NeverNegative {α : Type} [Scalar α] (x : α) : Prop :=
  Scalar.isNaN x = false → Scalar.le 0 x

class SymmetricDistances (α : Type) [Distances α] : Prop where
  between_comm (p : α) {s t : List α} (sameLength : s.length = t.length) :
    Distances.between p s t = Distances.between p t s

namespace NeverNegative

variable {α : Type} [Scalar α]

theorem of_le {x : α} (nonneg : Scalar.le 0 x) : NeverNegative x :=
  fun _ => nonneg

variable [AdditiveScalar α] [AbsorbingScalar α]

theorem add {x y : α} (xNever : NeverNegative x) (yNever : NeverNegative y) :
    NeverNegative (x + y) := by
  intro number
  obtain ⟨xNumber, yNumber⟩ := Scalar.numbers_of_absorbs AbsorbingScalar.isNaN_add number
  exact Scalar.add_nonneg (xNever xNumber) (yNever yNumber)

theorem foldl {β : Type} {term : β → α} {list : List β} {total : α} (start : NeverNegative total)
    (terms : ∀ x ∈ list, NeverNegative (term x)) :
    NeverNegative (list.foldl (fun total x => total + term x) total) := by
  induction list generalizing total with
  | nil => exact start
  | cons x rest ih =>
      rw [List.forall_mem_cons] at terms
      exact ih (start.add terms.1) terms.2

end NeverNegative

namespace Distance

open Binary64

/-! ## The order of two samples -/

theorem gaps_comm (s t : List Float) : gaps s t = gaps t s := by
  unfold gaps
  rw [List.zipWith_comm]
  congr 1
  funext x y
  exact abs_sub_comm x y

theorem isZero_congr {x y : Float} (sizes : Scalar.abs x = Scalar.abs y) :
    Scalar.isZero x = Scalar.isZero y := by
  rw [Bool.eq_iff_iff, ← abs_eq_zero_iff, ← abs_eq_zero_iff, sizes]

/-- The root of a sum of squares depends on the sizes of the differences only. -/
theorem scaledRoot_congr (scale squares : Float) {differences differences' : List Float}
    (sizes : differences.map Scalar.abs = differences'.map Scalar.abs) :
    scaledRoot scale squares differences = scaledRoot scale squares differences' := by
  induction differences generalizing scale squares differences' with
  | nil =>
      rw [List.map_nil, eq_comm, List.map_eq_nil_iff] at sizes
      rw [sizes]
  | cons x rest ih =>
      cases differences' with
      | nil => cases sizes
      | cons x' rest' =>
          rw [List.map_cons, List.map_cons, List.cons.injEq] at sizes
          simp only [scaledRoot, isZero_congr sizes.1, sizes.1, ih _ _ sizes.2]

theorem euclidean_comm (s t : List Float) : euclidean s t = euclidean t s := by
  apply scaledRoot_congr
  rw [List.map_zipWith, List.map_zipWith, List.zipWith_comm]
  congr 1
  funext x y
  exact abs_sub_comm y x

theorem ofOrder_comm (p : Float) {s t : List Float} (channels : s.length = t.length) :
    ofOrder p s t = ofOrder p t s := by
  have empty : s.isEmpty = t.isEmpty := by
    rw [Bool.eq_iff_iff, List.isEmpty_iff_length_eq_zero, List.isEmpty_iff_length_eq_zero,
      channels]
  unfold ofOrder cityBlock supremum minkowski
  rw [empty, euclidean_comm s t, gaps_comm s t]

/-! ## The sign of a distance -/

theorem neverNegative_abs (x : Float) : NeverNegative (Scalar.abs x) := by
  intro number
  rw [MeasuredScalar.isNaN_abs] at number
  exact zero_le_abs number

theorem neverNegative_of_mem_gaps {s t : List Float} : ∀ gap ∈ gaps s t, NeverNegative gap := by
  intro gap isGap
  rw [gaps, List.mem_iff_getElem] at isGap
  obtain ⟨i, inside, rfl⟩ := isGap
  rw [List.getElem_zipWith]
  exact neverNegative_abs _

theorem largest_nonneg {best : Float} (nonneg : Scalar.le 0 best) (list : List Float) :
    Scalar.le 0 (largest best list) := by
  induction list generalizing best with
  | nil => exact nonneg
  | cons gap rest ih =>
      rw [largest_cons]
      apply ih
      split
      · exact OrderedScalar.le_trans nonneg (Scalar.le_of_lt ‹_›)
      · exact nonneg

/-- A difference that is no number leaves no root of the sum of squares. -/
theorem isNaN_scaledRoot (scale squares : Float) {differences : List Float}
    (none : ∃ x ∈ differences, Scalar.isNaN x = true) :
    Scalar.isNaN (scaledRoot scale squares differences) = true := by
  induction differences generalizing scale squares with
  | nil => simp at none
  | cons x rest ih =>
      rw [scaledRoot]
      dsimp only
      by_cases here : Scalar.isNaN x = true
      · have size : Scalar.isNaN (Scalar.abs x) = true := by
          rw [MeasuredScalar.isNaN_abs, here]
        rw [Scalar.isZero_of_isNaN here, if_neg Bool.false_ne_true, if_pos size]
        exact AbsorbingScalar.isNaN_nan
      · have later : ∃ x ∈ rest, Scalar.isNaN x = true := by
          obtain ⟨y, listed, none⟩ := none
          rcases List.mem_cons.mp listed with rfl | listed
          · exact absurd none here
          · exact ⟨y, listed, none⟩
        split
        · exact ih _ _ later
        · split
          · exact AbsorbingScalar.isNaN_nan
          · split
            · exact ih _ _ later
            · exact ih _ _ later

theorem neverNegative_euclidean (s t : List Float) : NeverNegative (euclidean s t) := by
  intro number
  refine scaledRoot_nonneg .start fun x listed => ?_
  by_contra none
  have lost := isNaN_scaledRoot 0 1 ⟨x, listed, by simpa using none⟩
  exact Bool.false_ne_true (number.symm.trans lost)

/-- Powers with an exponent from zero up are never negative, unless what is raised is. -/
def PowersNeverNegative : Prop :=
  ∀ x y : Float, NeverNegative x → Scalar.le 0 y → NeverNegative (Scalar.pow x y)

def PowerFree (p : Float) : Prop :=
  Scalar.eq p (Scalar.natural 2) ∨ Scalar.eq p 1 ∨ Scalar.eq p Scalar.inf

/-- The order of a norm that is computed by powers is above zero, and its inverse is too: even that
of the largest number is not rounded to zero. -/
theorem exponents_pos {p : Float} (number : Scalar.isNaN p = false)
    (large : Scalar.lt p 1 = false) (other : Scalar.eq p Scalar.inf = false) :
    Scalar.lt 0 p ∧ Scalar.lt 0 (1 / p) := by
  have oneNumber : Scalar.isNaN (1 : Float) = false := MeasuredScalar.isNaN_one
  have unit : Scalar.lt (0 : Float) 1 := by with_unfolding_all decide
  have atLeast : Scalar.le 1 p :=
    Scalar.le_of_not_lt number oneNumber (by rw [large]; exact nofun)
  have nonneg : Scalar.le 0 p := OrderedScalar.le_trans (Scalar.le_of_lt unit) atLeast
  have finite : Scalar.finite p = true := by
    by_contra notFinite
    rcases infinite_of_not_finite number notFinite with rfl | rfl
    · rw [OrderedScalar.eq_iff.mpr ⟨Scalar.le_inf AdditiveScalar.zero_le_inf,
        Scalar.le_inf AdditiveScalar.zero_le_inf⟩] at other
      cases other
    · exact absurd nonneg (by with_unfolding_all decide)
  have least : 1 ≤ amount p := by
    rwa [le_iff_amount_le finite_one finite, amount_one] at atLeast
  have positive : 0 < amount p := zero_lt_one.trans_le least
  have most : amount p ≤ limit := (abs_lt.mp (onScale_amount finite).abs_lt_limit).2.le
  have smallestPos : 0 < smallest := two_zpow_pos (-1074)
  have rounds := rounds_amount_div finite_one finite positive.ne'
  rw [amount_one] at rounds
  have above : smallest ≤ 1 / amount p := by
    rw [le_div_iff₀ positive]
    calc
      smallest * amount p ≤ smallest * limit := mul_le_mul_of_nonneg_left most smallestPos.le
      _ = 2 ^ (-50 : ℤ) := by rw [smallest, limit, ← zpow_add₀ two_ne_zero]; rfl
      _ ≤ 1 := zpow_le_one_of_nonpos₀ one_le_two (by decide)
  obtain ⟨inverseFinite, inverseLeast, -⟩ := within_of_rounds (value_div 1 p) rounds
    onScale_smallest onScale_one above ((div_le_one positive).mpr least)
  have above_zero {x : Float} (xFinite : Scalar.finite x) (xPositive : 0 < amount x) :
      Scalar.lt 0 x :=
    (lt_iff_amount_lt MeasuredScalar.finite_zero xFinite).mpr (amount_zero.trans_lt xPositive)
  exact ⟨above_zero finite positive, above_zero inverseFinite (smallestPos.trans_le inverseLeast)⟩

/-- A distance is from zero up unless it is no number. -/
theorem neverNegative_ofOrder {p : Float} (norm : PowerFree p ∨ PowersNeverNegative)
    (number : Scalar.isNaN p = false) (large : Scalar.lt p 1 = false) (s t : List Float) :
    NeverNegative (ofOrder p s t) := by
  have zero : NeverNegative (0 : Float) := .of_le Scalar.zero_le_zero
  unfold ofOrder
  split
  · exact zero
  split
  · exact neverNegative_euclidean s t
  rename_i notTwo
  split
  · exact NeverNegative.foldl zero fun _ => neverNegative_of_mem_gaps _
  rename_i notOne
  split
  · exact .of_le (largest_nonneg Scalar.zero_le_zero _)
  rename_i notInf
  rcases norm with (two | one | inf) | powers
  · exact absurd two notTwo
  · exact absurd one notOne
  · exact absurd inf notInf
  · obtain ⟨order, inverse⟩ := exponents_pos number large (Bool.eq_false_iff.mpr notInf)
    apply powers _ _ _ (Scalar.le_of_lt inverse)
    exact NeverNegative.foldl zero fun gap isGap =>
      powers gap p (neverNegative_of_mem_gaps gap isGap) (Scalar.le_of_lt order)

end Distance

instance : SymmetricDistances Float where
  between_comm := Distance.ofOrder_comm

end EchoState
