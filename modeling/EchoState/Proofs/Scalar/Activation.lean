import EchoState.Proofs.Scalar.Gap
import EchoState.Proofs.Scalar.InverseTangent

/-!
# Laws of differences and of the activation

What the settling of a reservoir asks of its scalar. A difference of equal numbers is zero, and a
difference from zero is as large as the number taken away. The activation keeps zero and finite
numbers, and its inverse is finite inside its domain. The running scalar keeps these laws.
-/

namespace EchoState

/-- A scalar whose zero is neutral for sums and differences, up to the negative zero. -/
class DifferenceScalar (α : Type) [Scalar α] : Prop extends SignedZeroScalar α where
  zero_add : ∀ {x : α}, x ≠ -0 → 0 + x = x
  sub_zero : ∀ x : α, x - 0 = x
  sub_self : ∀ {x : α}, Scalar.finite x → x - x = 0
  abs_zero : Scalar.abs (0 : α) = 0
  abs_zero_sub : ∀ x : α, Scalar.abs (0 - x) = Scalar.abs x

/-- A scalar whose activation keeps zero and finite values, and whose inverse activation is finite
inside its domain. -/
class ActivationScalar (α : Type) [Scalar α] : Prop
    extends MeasuredScalar α, DifferenceScalar α where
  tanh_zero : Scalar.tanh (0 : α) = 0
  finite_tanh : ∀ {x : α}, Scalar.finite x → Scalar.finite (Scalar.tanh x)
  finite_atanh : ∀ {x : α}, Scalar.finite x → Scalar.lt (Scalar.abs x) 1 →
    Scalar.finite (Scalar.atanh x)
  /-- The inverse activation gives the negative zero for nothing else. -/
  neg_zero_of_atanh : ∀ {x : α}, Scalar.finite x → Scalar.lt (Scalar.abs x) 1 →
    Scalar.atanh x = -0 → x = -0

end EchoState

namespace EchoState.Binary64

open Float.Model Float.Model.UnpackedFloat

theorem neg_neg_eq (x : Float) : - -x = x := by
  apply value_injective
  rw [value_neg, value_neg, neg_neg_value]

theorem zero_add_of_ne {x : Float} (other : x ≠ -0) : 0 + x = x := by
  have other : value x ≠ .zero .negative := fun same =>
    other (value_injective (same.trans value_neg_zero.symm))
  have has := representable_value x
  have sum : UnpackedFloat.add Format.binary64 (.zero .positive) (value x) = value x := by
    cases same : value x with
    | notANumber => rfl
    | infinity sign => rfl
    | zero sign =>
        cases sign with
        | negative => exact absurd same other
        | positive => rfl
    | finite sign m e positive => rfl
  apply value_injective
  rw [value_add, value_zero, sum, repacked_of_representable has]

theorem sub_eq_add_opposite (x y : Float) : x - y = x + -y := by
  apply value_injective
  rw [value_sub, value_add, value_neg, sub_eq_add]

theorem zero_sub_of_ne {x : Float} (other : x ≠ 0) : 0 - x = -x := by
  rw [sub_eq_add_opposite]
  apply zero_add_of_ne
  intro same
  exact other (by rw [← neg_neg_eq x, same, neg_neg_eq])

theorem abs_opposite (x : Float) : Scalar.abs (-x) = Scalar.abs x := by
  apply value_injective
  rw [value_abs, value_abs, value_neg]
  cases value x <;> rfl

theorem abs_zero_sub (x : Float) : Scalar.abs (0 - x) = Scalar.abs x := by
  by_cases zero : x = 0
  · subst zero
    rfl
  · rw [zero_sub_of_ne zero, abs_opposite]

theorem sub_zero_eq (x : Float) : x - 0 = x := by
  have difference : UnpackedFloat.sub Format.binary64 (value x) (.zero .positive) = value x := by
    cases value x with
    | notANumber => rfl
    | infinity sign => rfl
    | zero sign => cases sign <;> rfl
    | finite sign m e positive => rfl
  apply value_injective
  rw [value_sub, value_zero, difference, repacked_of_representable (representable_value x)]

end EchoState.Binary64

namespace EchoState

open Binary64

instance : DifferenceScalar Float where
  zero_add := zero_add_of_ne
  sub_zero := sub_zero_eq
  sub_self := sub_self_of_finite
  abs_zero := by rfl
  abs_zero_sub := Binary64.abs_zero_sub

instance : ActivationScalar Float where
  tanh_zero := by rfl
  finite_tanh := Elementary.finite_tanh
  finite_atanh := Elementary.finite_atanh
  neg_zero_of_atanh := Elementary.neg_zero_of_atanh

end EchoState
