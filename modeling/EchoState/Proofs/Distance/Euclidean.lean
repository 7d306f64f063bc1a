import EchoState.Distance
import EchoState.Proofs.Scalar.Activation
import EchoState.Proofs.Scalar.Root

/-!
# Euclidean distances

The root of a sum of squares is kept as a scale and a sum of shares of it. No share exceeds one, and
at 2^53 a further share changes nothing, so the sum stays where its root is finite. Hence the
distance of finite samples is always a number from zero up, infinite only where a difference or the
result is too large. A finite sample is at no distance from itself.
-/

namespace EchoState

/-- Under the norm of order two the distance of finite samples is from zero up, and a finite sample
is at no distance from itself. -/
class EuclideanDistances (α : Type) [Scalar α] [Distances α] : Prop where
  between_two_nonneg {s t : List α} (sFinite : ∀ x ∈ s, Scalar.finite x)
    (tFinite : ∀ x ∈ t, Scalar.finite x) (sameLength : s.length = t.length) :
    Scalar.le 0 (Distances.between (Scalar.natural 2) s t)
  between_two_self {s : List α} (finite : ∀ x ∈ s, Scalar.finite x) :
    Distances.between (Scalar.natural 2) s s = 0

namespace Binary64

open Float.Model

/-! ## Sizes -/

theorem amount_abs_pos {x : Float} (finite : Scalar.finite (Scalar.abs x))
    (notZero : ¬Scalar.isZero x) : 0 < amount (Scalar.abs x) := by
  unfold amount
  rw [finite_iff, value_abs] at finite
  rw [isZero_iff] at notZero
  rw [value_abs]
  cases same : value x with
  | notANumber => simp [same, UnpackedFloat.abs] at finite
  | infinity sign => simp [same, UnpackedFloat.abs] at finite
  | zero sign => exact absurd ⟨sign, same⟩ notZero
  | finite sign m e positive => exact mul_pos (Nat.cast_pos.mpr positive) (two_zpow_pos e)

/-! ## Sums of shares -/

theorem onScale_one : OnScale 1 := by
  simpa using onScale_natCast (n := 1) (by norm_num)

theorem onScale_plenty : OnScale (2 ^ 53) :=
  ⟨1, 53, by norm_num, by norm_num, by norm_num, by norm_num⟩

/-- The sum to which a further share adds nothing. -/
def plenty : Float :=
  9007199254740992

theorem amount_plenty : Scalar.finite plenty = true ∧ amount plenty = 2 ^ 53 := by
  constructor <;> with_unfolding_all decide

/-- One more share leaves a sum below `plenty` there, on whichever side it is added. -/
theorem le_plenty_of_add {x y : Float} (xNonneg : Scalar.le 0 x) (xMost : Scalar.le x plenty)
    (yNonneg : Scalar.le 0 y) (yMost : Scalar.le y 1) :
    Scalar.le (x + y) plenty ∧ Scalar.le (y + x) plenty := by
  have after : Scalar.le (plenty + 1) plenty ∧ Scalar.le (1 + plenty) plenty := by
    constructor <;> with_unfolding_all decide
  exact ⟨OrderedScalar.le_trans (AdditiveScalar.add_le_add xNonneg xMost yNonneg yMost) after.1,
    OrderedScalar.le_trans (AdditiveScalar.add_le_add yNonneg yMost xNonneg xMost) after.2⟩

theorem within_plenty_iff {x : Float} :
    Within x (some ⟨0, 2 ^ 53⟩) ↔ Scalar.le 0 x ∧ Scalar.le x plenty := by
  obtain ⟨plentyFinite, plentyAmount⟩ := amount_plenty
  constructor
  · rintro ⟨finite, least, most⟩
    rw [zero_le_iff finite, le_iff_amount_le finite plentyFinite, plentyAmount]
    exact ⟨least, most⟩
  · rintro ⟨nonneg, atMost⟩
    have finite := finite_of_le nonneg atMost plentyFinite
    rw [zero_le_iff finite] at nonneg
    rw [le_iff_amount_le finite plentyFinite, plentyAmount] at atMost
    exact ⟨finite, nonneg, atMost⟩

section Shares

variable {x y : Float} {top : ℚ}

/-- A part of a number over a number at least as large is a share. -/
theorem within_div_of_le (xFinite : Scalar.finite x) (yFinite : Scalar.finite y)
    (xNonneg : 0 ≤ amount x) (atMost : amount x ≤ amount y) (positive : 0 < amount y) :
    Within (x / y) (some ⟨0, 1⟩) :=
  within_of_rounds (value_div x y) (rounds_amount_div xFinite yFinite positive.ne') onScale_zero
    onScale_one (div_nonneg xNonneg positive.le) ((div_le_one positive).mpr atMost)

theorem Within.mul_share (topOn : OnScale top) (xWithin : Within x (some ⟨0, top⟩))
    (yWithin : Within y (some ⟨0, 1⟩)) : Within (x * y) (some ⟨0, top⟩) := by
  obtain ⟨xFinite, xLeast, xMost⟩ := xWithin
  obtain ⟨yFinite, yLeast, yMost⟩ := yWithin
  refine within_of_rounds (value_mul x y) (rounds_amount_mul xFinite yFinite) onScale_zero topOn
    (mul_nonneg xLeast yLeast) ?_
  exact le_trans (mul_le_of_le_one_right xLeast yMost) xMost

theorem Within.add_share (xWithin : Within x (some ⟨0, 2 ^ 53⟩))
    (yWithin : Within y (some ⟨0, 1⟩)) :
    Within (x + y) (some ⟨0, 2 ^ 53⟩) ∧ Within (y + x) (some ⟨0, 2 ^ 53⟩) := by
  obtain ⟨xNonneg, xMost⟩ := within_plenty_iff.mp xWithin
  obtain ⟨yFinite, yLeast, yMost⟩ := yWithin
  have yNonneg : Scalar.le 0 y := (within_plenty_iff.mp
    (show Within y (some ⟨0, 2 ^ 53⟩) from ⟨yFinite, yLeast, yMost.trans (by norm_num)⟩)).1
  have yBelow : Scalar.le y 1 := by
    rw [le_iff_amount_le yFinite finite_one, amount_one]
    exact yMost
  obtain ⟨after, before⟩ := le_plenty_of_add xNonneg xMost yNonneg yBelow
  exact ⟨within_plenty_iff.mpr ⟨Scalar.add_nonneg xNonneg yNonneg, after⟩,
    within_plenty_iff.mpr ⟨Scalar.add_nonneg yNonneg xNonneg, before⟩⟩

theorem within_share_one : Within 1 (some ⟨0, 1⟩) :=
  ⟨finite_one, by rw [amount_one]; exact zero_le_one, amount_one.le⟩

end Shares

end Binary64

namespace Distance

open Binary64

/-! ## The scale and the shares -/

section Steps

variable {α : Type} [Scalar α]

/-- Differences that are zero are passed over. -/
theorem scaledRoot_of_isZero (scale squares : α) {differences : List α}
    (zeros : ∀ x ∈ differences, Scalar.isZero x) :
    scaledRoot scale squares differences = scaledRoot scale squares [] := by
  induction differences with
  | nil => rfl
  | cons x rest ih =>
      rw [List.forall_mem_cons] at zeros
      rw [scaledRoot]
      exact (if_pos zeros.1).trans (ih zeros.2)

end Steps

/-- Once the scale is infinite it stays so. -/
theorem scaledRoot_inf (squares : Float) {differences : List Float}
    (numbers : ∀ x ∈ differences, Scalar.isNaN x = false) :
    scaledRoot Scalar.inf squares differences = Scalar.inf := by
  induction differences generalizing squares with
  | nil => exact if_pos (by with_unfolding_all decide)
  | cons x rest ih =>
      rw [List.forall_mem_cons] at numbers
      have number : ¬Scalar.isNaN (Scalar.abs x) = true := by
        rw [MeasuredScalar.isNaN_abs, numbers.1]
        exact Bool.false_ne_true
      have top : ¬Scalar.lt Scalar.inf (Scalar.abs x) = true := fun above =>
        (OrderedScalar.lt_iff.mp above).2 (Scalar.le_inf (zero_le_abs numbers.1))
      rw [scaledRoot]
      dsimp only
      rw [if_neg number, if_neg top]
      split
      · exact ih _ numbers.2
      · exact ih _ numbers.2

/-- As long as every difference is finite, the scale is finite and the shares add up to no more than
`plenty`. -/
structure UnderWay (scale squares : Float) : Prop where
  finite : Scalar.finite scale = true
  nonneg : 0 ≤ amount scale
  squares_within : Within squares (some ⟨0, 2 ^ 53⟩)

namespace UnderWay

theorem start : UnderWay 0 1 where
  finite := MeasuredScalar.finite_zero
  nonneg := amount_zero.ge
  squares_within := ⟨finite_one, by rw [amount_one]; norm_num, by rw [amount_one]; norm_num⟩

variable {scale squares : Float} (underWay : UnderWay scale squares)

include underWay

theorem root_nonneg : Scalar.le 0 (scale * Scalar.sqrt squares) := by
  obtain ⟨squaresFinite, least, most⟩ := underWay.squares_within
  have rootOn : OnScale (2 ^ 27) := ⟨1, 27, by norm_num, by norm_num, by norm_num, by norm_num⟩
  obtain ⟨rootFinite, rootNonneg, _⟩ := within_sqrt squaresFinite least rootOn (by norm_num)
    (most.trans (by norm_num))
  exact (number_of_rounds (value_mul _ _) (rounds_amount_mul underWay.finite rootFinite)).2
    (mul_nonneg underWay.nonneg rootNonneg)

variable {size : Float} (sizeFinite : Scalar.finite size)

include sizeFinite

theorem rescale (larger : Scalar.lt scale size) :
    UnderWay size (1 + squares * (scale / size) * (scale / size)) := by
  have more := (lt_iff_amount_lt underWay.finite sizeFinite).mp larger
  have shrink := within_div_of_le underWay.finite sizeFinite underWay.nonneg more.le
    (lt_of_le_of_lt underWay.nonneg more)
  have shrunk := (underWay.squares_within.mul_share onScale_plenty shrink).mul_share
    onScale_plenty shrink
  exact ⟨sizeFinite, underWay.nonneg.trans more.le, (shrunk.add_share within_share_one).2⟩

theorem share (positive : 0 < amount size) (notLarger : ¬Scalar.lt scale size) :
    UnderWay scale (squares + size / scale * (size / scale)) := by
  rw [lt_iff_amount_lt underWay.finite sizeFinite, not_lt] at notLarger
  have share := within_div_of_le sizeFinite underWay.finite positive.le notLarger
    (lt_of_lt_of_le positive notLarger)
  have square := share.mul_share onScale_one share
  exact ⟨underWay.finite, underWay.nonneg, (underWay.squares_within.add_share square).1⟩

end UnderWay

/-- A number is taken in as long as it is finite, and from the first infinite one on the root is
infinite. -/
theorem UnderWay.scaledRoot_cons {scale squares : Float} (underWay : UnderWay scale squares)
    {x : Float} {rest : List Float} (number : Scalar.isNaN x = false)
    (numbers : ∀ y ∈ rest, Scalar.isNaN y = false) :
    (Scalar.finite (Scalar.abs x) = true ∧ ∃ scale' squares', UnderWay scale' squares' ∧
      scaledRoot scale squares (x :: rest) = scaledRoot scale' squares' rest) ∨
      Scalar.finite (Scalar.abs x) = false ∧
        scaledRoot scale squares (x :: rest) = Scalar.inf := by
  have sizeNumber : ¬Scalar.isNaN (Scalar.abs x) = true := by
    rw [MeasuredScalar.isNaN_abs, number]
    exact Bool.false_ne_true
  rw [scaledRoot]
  dsimp only
  by_cases zero : Scalar.isZero x = true
  · obtain ⟨sign, same⟩ := isZero_iff.mp zero
    rw [if_pos zero]
    exact Or.inl ⟨finite_abs (finite_iff.mpr (Or.inl ⟨sign, same⟩)), scale, squares, underWay, rfl⟩
  · rw [if_neg zero, if_neg sizeNumber]
    cases sizeFinite : Scalar.finite (Scalar.abs x) with
    | true =>
        have positive := amount_abs_pos sizeFinite zero
        refine Or.inl ⟨rfl, ?_⟩
        split
        · exact ⟨_, _, underWay.rescale sizeFinite ‹_›, rfl⟩
        · exact ⟨_, _, underWay.share sizeFinite positive ‹_›, rfl⟩
    | false =>
        rw [abs_eq_inf number (by rw [sizeFinite]; exact Bool.false_ne_true),
          if_pos (lt_inf_of_finite underWay.finite), scaledRoot_inf _ numbers]
        exact Or.inr ⟨rfl, rfl⟩

theorem scaledRoot_nonneg {scale squares : Float} (underWay : UnderWay scale squares)
    {differences : List Float} (numbers : ∀ x ∈ differences, Scalar.isNaN x = false) :
    Scalar.le 0 (scaledRoot scale squares differences) := by
  induction differences generalizing scale squares with
  | nil =>
      rw [scaledRoot]
      split
      · exact AdditiveScalar.zero_le_inf
      · exact underWay.root_nonneg
  | cons x rest ih =>
      rw [List.forall_mem_cons] at numbers
      rcases underWay.scaledRoot_cons numbers.1 numbers.2 with
        ⟨-, scale', squares', onward, same⟩ | ⟨-, infinite⟩
      · rw [same]
        exact ih onward numbers.2
      · rw [infinite]
        exact AdditiveScalar.zero_le_inf

/-! ## Distances of finite samples -/

theorem ofOrder_two (s t : List Float) :
    ofOrder (Scalar.natural 2) s t = if s.isEmpty then 0 else euclidean s t := by
  have two : Scalar.eq (Scalar.natural 2 : Float) (Scalar.natural 2) = true := by
    with_unfolding_all decide
  unfold ofOrder
  rw [if_pos two]
  rfl

section Samples

variable {s t : List Float} (sFinite : ∀ x ∈ s, Scalar.finite x)

include sFinite

theorem euclidean_nonneg (tFinite : ∀ x ∈ t, Scalar.finite x) : Scalar.le 0 (euclidean s t) := by
  refine scaledRoot_nonneg .start fun difference isDifference => ?_
  obtain ⟨i, inside, rfl⟩ := List.mem_iff_getElem.mp isDifference
  rw [List.getElem_zipWith]
  exact isNaN_sub (sFinite _ (List.getElem_mem _)) (tFinite _ (List.getElem_mem _))

theorem euclidean_self : euclidean s s = 0 := by
  have zeros : ∀ x ∈ List.zipWith (· - ·) s s, Scalar.isZero x := by
    rw [List.zipWith_self]
    intro x isDifference
    obtain ⟨y, isEntry, rfl⟩ := List.mem_map.mp isDifference
    rw [sub_self_of_finite (sFinite y isEntry)]
    exact isZero_iff.mpr ⟨_, value_zero⟩
  rw [euclidean, scaledRoot_of_isZero _ _ zeros]
  with_unfolding_all rfl

theorem ofOrder_two_nonneg (tFinite : ∀ x ∈ t, Scalar.finite x) :
    Scalar.le 0 (ofOrder (Scalar.natural 2) s t) := by
  rw [ofOrder_two]
  split
  · exact Scalar.zero_le_zero
  · exact euclidean_nonneg sFinite tFinite

theorem ofOrder_two_self : ofOrder (Scalar.natural 2) s s = 0 := by
  rw [ofOrder_two, euclidean_self sFinite, ite_self]

end Samples

end Distance

instance : EuclideanDistances Float where
  between_two_nonneg sFinite tFinite _ := Distance.ofOrder_two_nonneg sFinite tFinite
  between_two_self := Distance.ofOrder_two_self

end EchoState
