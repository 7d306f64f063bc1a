import EchoState.Proofs.Scalar.Activation

/-!
# One and the two zeros

A finite value times one is the value, and zero plus a value is the value without the sign of a
zero. A sum from zero on in which every term but one is a zero is therefore that term, and it does
not matter which of the zeros are left out. The running scalar keeps these laws.
-/

namespace EchoState

/-- A scalar whose one is neutral for the products of finite values, and whose zero is neutral for
sums up to the negative zero. -/
class UnitScalar (α : Type) [Scalar α] : Prop extends MeasuredScalar α, SignedZeroScalar α where
  finite_one : Scalar.finite (1 : α)
  isZero_neg_zero : Scalar.isZero (-0 : α)
  one_mul : ∀ {x : α}, Scalar.finite x → 1 * x = x
  mul_one : ∀ {x : α}, Scalar.finite x → x * 1 = x
  zero_add : ∀ {x : α}, x ≠ -0 → 0 + x = x

namespace Scalar

variable {α : Type} [Scalar α]

/-- The value without the sign of a zero. -/
def plain (x : α) : α :=
  if isZero x then 0 else x

theorem plain_zero : plain (0 : α) = 0 :=
  ite_self 0

theorem finite_plain [MeasuredScalar α] {x : α} (isFinite : finite x) : finite (plain x) := by
  unfold plain
  split
  · exact MeasuredScalar.finite_zero
  · exact isFinite

theorem zero_add_eq_plain [UnitScalar α] (x : α) : 0 + x = plain x := by
  unfold plain
  by_cases zero : isZero x = true
  · rw [if_pos zero]
    exact SignedZeroScalar.add_of_isZero zero SignedZeroScalar.zero_ne_neg_zero
  · rw [if_neg zero]
    refine UnitScalar.zero_add fun negative => zero ?_
    rw [negative]
    exact UnitScalar.isZero_neg_zero

/-- A sum in which every term but one is a zero is that term, whichever zeros are left out. -/
theorem sumWhere_of_others_zero [UnitScalar α] {n : Nat} {keep : Fin n → Bool} {term : Fin n → α}
    (i : Fin n) (others : ∀ k, k ≠ i → isZero (term k))
    (zeros : ∀ k, keep k = false → isZero (term k)) : sumWhere n keep term = plain (term i) := by
  have onlyOne (k : Fin n) (left : decide (k = i) = false) : isZero (term k) :=
    others k (of_decide_eq_false left)
  rw [sumWhere_congr_zeros n zeros onlyOne, sumWhere_single term i fun _ => rfl, zero_add_eq_plain]

end Scalar

end EchoState

namespace EchoState.Binary64

open Float.Model Float.Model.UnpackedFloat

theorem eq_of_amount_eq {x y : Float} (xFinite : Scalar.finite x) (yFinite : Scalar.finite y)
    (same : amount x = amount y) (notZero : amount y ≠ 0) : x = y := by
  have equal : Scalar.eq x y := by
    rw [OrderedScalar.eq_iff, le_iff_amount_le xFinite yFinite, le_iff_amount_le yFinite xFinite]
    exact ⟨same.le, same.ge⟩
  rcases eq_or_zeros_of_eq equal with identical | ⟨_, sign, -, zero⟩
  · exact identical
  · exact absurd (congrArg exact zero) notZero

/-- A product that needs no rounding is the number of its amount. -/
theorem mul_eq_of_amount_eq {x y z : Float} (xFinite : Scalar.finite x)
    (yFinite : Scalar.finite y) (zFinite : Scalar.finite z) (same : amount x * amount y = amount z)
    (notZero : amount z ≠ 0) : x * y = z := by
  have rounds := rounds_amount_mul xFinite yFinite
  rw [same] at rounds
  have onScale := onScale_amount zFinite
  obtain ⟨productFinite, least, most⟩ :=
    within_of_rounds (value_mul x y) rounds onScale onScale (le_refl _) (le_refl _)
  exact eq_of_amount_eq productFinite zFinite (le_antisymm most least) notZero

theorem zero_or_amount_ne_zero {x : Float} (finite : Scalar.finite x) :
    (∃ sign, value x = .zero sign) ∨ amount x ≠ 0 := by
  refine (finite_iff.mp finite).imp_right ?_
  rintro ⟨sign, m, e, positive, same⟩
  unfold amount
  rw [same]
  have notZero : (m * 2 ^ e : ℚ) ≠ 0 := (mul_pos (Nat.cast_pos.mpr positive) (two_zpow_pos e)).ne'
  cases sign with
  | positive => exact notZero
  | negative => exact neg_ne_zero.mpr notZero

theorem mul_one_of_finite {x : Float} (finite : Scalar.finite x) : x * 1 = x := by
  rcases zero_or_amount_ne_zero finite with ⟨sign, zero⟩ | notZero
  · apply value_injective
    rw [value_mul, zero]
    cases sign <;> rfl
  · exact mul_eq_of_amount_eq finite finite_one finite (by rw [amount_one, mul_one]) notZero

theorem one_mul_of_finite {x : Float} (finite : Scalar.finite x) : 1 * x = x := by
  rcases zero_or_amount_ne_zero finite with ⟨sign, zero⟩ | notZero
  · apply value_injective
    rw [value_mul, zero]
    cases sign <;> rfl
  · exact mul_eq_of_amount_eq finite_one finite finite (by rw [amount_one, one_mul]) notZero

end EchoState.Binary64

namespace EchoState

instance : UnitScalar Float where
  finite_one := Binary64.finite_one
  isZero_neg_zero := by rfl
  one_mul := Binary64.one_mul_of_finite
  mul_one := Binary64.mul_one_of_finite
  zero_add := Binary64.zero_add_of_ne

end EchoState
