import EchoState.Proofs.Scalar.Absorption
import EchoState.Proofs.Scalar.Activation

/-!
# Which differences overflow

Beside the largest finite number the gap between neighbours is so wide that a number of moderate
size is lost in it. Hence the difference of a moderate number and another one overflows only when
the other one is infinite already, and then it is the opposite infinity. The values of the inverse
activation are moderate.
-/

namespace EchoState.Binary64

open Float.Model Float.Model.UnpackedFloat

/-! ## The largest number -/

/-- The largest finite number. -/
def greatest : Float :=
  Float.ofBits 0x7FEFFFFFFFFFFFFF

theorem value_greatest : value greatest = .finite .positive (2 ^ 53 - 1) 971 (by decide) := by
  rfl

theorem finite_greatest : Scalar.finite greatest = true :=
  finite_iff.mpr (Or.inr ⟨_, _, _, _, value_greatest⟩)

theorem le_greatest {x : Float} (finite : Scalar.finite x) : Scalar.le x greatest := by
  obtain ⟨n, e, small, _, most, same⟩ := onScale_amount finite
  have bits : (n : ℚ) ≤ ((2 ^ 53 - 1 : Nat) : ℚ) := by
    have bound : n ≤ 2 ^ 53 - 1 := by
      have := (abs_lt.mp small).2
      omega
    exact_mod_cast bound
  have power : (2 : ℚ) ^ e ≤ 2 ^ (971 : ℤ) := zpow_le_zpow_right₀ (by norm_num) most
  have size : amount greatest = ((2 ^ 53 - 1 : Nat) : ℚ) * 2 ^ (971 : ℤ) := by
    unfold amount
    rw [value_greatest]
    rfl
  rw [le_iff_amount_le finite finite_greatest, size, same]
  calc
    (n : ℚ) * 2 ^ e ≤ ((2 ^ 53 - 1 : Nat) : ℚ) * 2 ^ e :=
      mul_le_mul_of_nonneg_right bits (two_zpow_pos e).le
    _ ≤ ((2 ^ 53 - 1 : Nat) : ℚ) * 2 ^ (971 : ℤ) :=
      mul_le_mul_of_nonneg_left power (Nat.cast_nonneg _)

/-- A sum from zero up is finite when a sum of bounds of its terms is. -/
theorem finite_add_of_le {x y a b : Float} (xNonneg : Scalar.le 0 x) (xAtMost : Scalar.le x a)
    (yNonneg : Scalar.le 0 y) (yAtMost : Scalar.le y b) (finite : Scalar.finite (a + b)) :
    Scalar.finite (x + y) = true :=
  finite_of_le (Scalar.add_nonneg xNonneg yNonneg)
    (AdditiveScalar.add_le_add xNonneg xAtMost yNonneg yAtMost) finite

/-! ## Moderate numbers -/

/-- A size that is lost beside the largest number. -/
def moderate : Float :=
  Float.ofBits 0x4490000000000000

theorem finite_moderate : Scalar.finite moderate = true := by
  with_unfolding_all decide

theorem amount_moderate : amount moderate = 2 ^ 74 := by
  with_unfolding_all decide

theorem finite_moderate_add_greatest :
    Scalar.finite (moderate + greatest) = true ∧ Scalar.finite (greatest + moderate) = true := by
  decide +kernel

theorem finite_of_finite_abs {x : Float} (finite : Scalar.finite (Scalar.abs x)) :
    Scalar.finite x = true := by
  by_contra notFinite
  rw [finite_iff, value_abs] at finite
  rw [finite_iff] at notFinite
  cases same : value x with
  | notANumber => simp [same, UnpackedFloat.abs] at finite
  | infinity sign => simp [same, UnpackedFloat.abs] at finite
  | zero sign => exact notFinite (Or.inl ⟨sign, same⟩)
  | finite sign m e positive => exact notFinite (Or.inr ⟨sign, m, e, positive, same⟩)

/-! ## Differences from a finite number -/

section Infinite

variable {x : Float} (finite : Scalar.finite x)

include finite

theorem value_sub_of_infinity {y : Float} {sign : UnpackedFloat.Sign}
    (infinite : value y = .infinity sign) : value (x - y) = .infinity (-sign) := by
  rw [value_sub, infinite]
  rcases finite_iff.mp finite with ⟨zeroSign, same⟩ | ⟨xSign, m, e, positive, same⟩
  · rw [same]
    exact repacked_of_representable (a := .infinity (-sign)) trivial
  · rw [same]
    exact repacked_of_representable (a := .infinity (-sign)) trivial

theorem sub_inf : x - Scalar.inf = -Scalar.inf := by
  apply value_injective
  rw [value_sub_of_infinity finite value_inf, value_neg_inf]
  rfl

theorem sub_neg_inf : x - -Scalar.inf = Scalar.inf := by
  apply value_injective
  rw [value_sub_of_infinity finite value_neg_inf, value_inf]
  rfl

theorem isNaN_sub_eq (y : Float) : Scalar.isNaN (x - y) = Scalar.isNaN y := by
  cases none : Scalar.isNaN y with
  | true => exact AbsorbingScalar.isNaN_sub (Or.inr none)
  | false =>
      by_cases yFinite : Scalar.finite y
      · exact isNaN_sub finite yFinite
      · rcases infinite_of_not_finite none yFinite with rfl | rfl
        · rw [sub_inf finite]
          decide +kernel
        · rw [sub_neg_inf finite]
          decide +kernel

end Infinite

section Moderate

variable {x y : Float} (xFinite : Scalar.finite x) (small : |amount x| ≤ 2 ^ 74)

include xFinite small

/-- A moderate number and another one, both from zero up, have a finite sum. -/
theorem finite_add_of_moderate (yFinite : Scalar.finite y) (xNonneg : 0 ≤ amount x)
    (yNonneg : 0 ≤ amount y) :
    Scalar.finite (x + y) = true ∧ Scalar.finite (y + x) = true := by
  have xLeast := (zero_le_iff xFinite).mpr xNonneg
  have yLeast := (zero_le_iff yFinite).mpr yNonneg
  have xMost : Scalar.le x moderate := by
    rw [le_iff_amount_le xFinite finite_moderate, amount_moderate]
    exact (abs_le.mp small).2
  obtain ⟨first, second⟩ := finite_moderate_add_greatest
  exact ⟨finite_add_of_le xLeast xMost yLeast (le_greatest yFinite) first,
    finite_add_of_le yLeast (le_greatest yFinite) xLeast xMost second⟩

/-- The difference of two numbers on one side of zero is no larger than the larger of them, and that
of numbers on either side is a sum of their sizes. -/
theorem finite_sub_of_moderate (yFinite : Scalar.finite y) : Scalar.finite (x - y) = true := by
  have xOn := onScale_amount xFinite
  have yOn := (onScale_amount yFinite).neg
  have rounds := rounds_amount_sub xFinite yFinite
  rcases le_total 0 (amount x) with xNonneg | xNonpos
  · rcases le_total 0 (amount y) with yNonneg | yNonpos
    · exact (within_of_rounds (value_sub x y) rounds yOn xOn (by linarith) (by linarith)).1
    · rw [sub_eq_add_opposite]
      have opposite : 0 ≤ amount (-y) := by rwa [amount_neg, neg_nonneg]
      exact (finite_add_of_moderate xFinite small (finite_neg yFinite) xNonneg opposite).1
  · rcases le_total 0 (amount y) with yNonneg | yNonpos
    · -- Monotonicity is known of sums from zero up only, so the difference is taken the other way.
      have opposite : 0 ≤ amount (-x) := by rwa [amount_neg, neg_nonneg]
      have oppositeSmall : |amount (-x)| ≤ 2 ^ 74 := by rwa [amount_neg, abs_neg]
      apply finite_of_finite_abs
      rw [abs_sub_comm x y, sub_eq_add_opposite]
      exact finite_abs
        (finite_add_of_moderate (finite_neg xFinite) oppositeSmall yFinite opposite yNonneg).2
    · exact (within_of_rounds (value_sub x y) rounds xOn yOn (by linarith) (by linarith)).1

theorem finite_sub_eq (y : Float) : Scalar.finite (x - y) = Scalar.finite y := by
  cases yFinite : Scalar.finite y with
  | true => exact finite_sub_of_moderate xFinite small yFinite
  | false =>
      cases none : Scalar.isNaN y with
      | true => exact Scalar.not_finite_of_isNaN (AbsorbingScalar.isNaN_sub (Or.inr none))
      | false =>
          rcases infinite_of_not_finite none (by rw [yFinite]; exact Bool.false_ne_true) with
            rfl | rfl
          · rw [sub_inf xFinite]
            decide +kernel
          · rw [sub_neg_inf xFinite]
            decide +kernel

end Moderate

end EchoState.Binary64
