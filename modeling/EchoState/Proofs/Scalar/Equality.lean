import EchoState.Proofs.Scalar.Gap

/-!
# Numerically equal values

Numerically equal values are one value or two zeros. They cancel: the one taken from the other
leaves a zero, and a zero of either sign that is added to a value leaves it numerically the same.
The running scalar keeps these laws.
-/

namespace EchoState

/-- A scalar whose numerically equal values cancel, with finite weights for the integration rule. -/
class CancellingScalar (α : Type) [Scalar α] : Prop
    extends MeasuredScalar α, DiscreteScalar α where
  isZero_neg_zero : Scalar.isZero (-0 : α)
  isZero_sub : ∀ {x y : α}, Scalar.finite y → Scalar.eq x y → Scalar.isZero (x - y)
  add_eq_of_isZero : ∀ {x z : α}, Scalar.finite x → Scalar.isZero z → Scalar.eq (x + z) x
  finite_of_eq : ∀ {x y : α}, Scalar.eq x y → Scalar.finite y → Scalar.finite x
  finite_one : Scalar.finite (1 : α)
  finite_half : Scalar.finite (Scalar.ratio 1 2 : α)
  finite_third : Scalar.finite (Scalar.ratio 2 6 : α)
  finite_sixth : Scalar.finite (Scalar.ratio 1 6 : α)

namespace Scalar

variable {α : Type} [Scalar α]

theorem eq_self_of_finite [OrderedScalar α] {x : α} (isFinite : finite x) : eq x x := by
  have reflexive := OrderedScalar.le_refl (isNaN_of_finite isFinite)
  exact OrderedScalar.eq_iff.mpr ⟨reflexive, reflexive⟩

theorem eq_symm [OrderedScalar α] {x y : α} (same : eq x y) : eq y x :=
  OrderedScalar.eq_iff.mpr (OrderedScalar.eq_iff.mp same).symm

theorem eq_or_isZero [CancellingScalar α] {x y : α} (same : eq x y) :
    x = y ∨ isZero x ∧ isZero y := by
  by_cases xNegative : x = -0
  · have xZero : isZero x := xNegative ▸ CancellingScalar.isZero_neg_zero
    exact Or.inr ⟨xZero, eq_trans (eq_symm same) xZero⟩
  · by_cases yNegative : y = -0
    · have yZero : isZero y := yNegative ▸ CancellingScalar.isZero_neg_zero
      exact Or.inr ⟨eq_trans same yZero, yZero⟩
    · exact Or.inl (DiscreteScalar.eq_of_eq same xNegative yNegative)

end Scalar

end EchoState

namespace EchoState.Binary64

open Float.Model Float.Model.UnpackedFloat

theorem isZero_of_repacked {x : Float} {sign : Sign} (same : value x = repacked (.zero sign)) :
    Scalar.isZero x :=
  isZero_iff.mpr ⟨sign, same.trans (repacked_of_representable (a := .zero sign) trivial)⟩

theorem isZero_sub_of_eq {x y : Float} (finite : Scalar.finite y) (same : Scalar.eq x y) :
    Scalar.isZero (x - y) := by
  rcases eq_or_zeros_of_eq same with rfl | ⟨s, t, xZero, yZero⟩
  · rw [sub_self_of_finite finite]
    rfl
  · have difference := value_sub x y
    rw [xZero, yZero] at difference
    cases s <;> cases t <;> exact isZero_of_repacked difference

theorem add_eq_of_isZero {x z : Float} (finite : Scalar.finite x) (zero : Scalar.isZero z) :
    Scalar.eq (x + z) x := by
  by_cases negative : x = -0
  · subst negative
    obtain ⟨sign, zero⟩ := isZero_iff.mp zero
    have sum := value_add (-0) z
    rw [value_neg_zero, zero] at sum
    have sumZero : Scalar.isZero (-0 + z) := by cases sign <;> exact isZero_of_repacked sum
    exact Scalar.eq_trans sumZero (Scalar.eq_symm (by rfl))
  · rw [SignedZeroScalar.add_of_isZero zero negative]
    exact Scalar.eq_self_of_finite finite

theorem finite_of_eq {x y : Float} (same : Scalar.eq x y) (finite : Scalar.finite y) :
    Scalar.finite x := by
  rcases eq_or_zeros_of_eq same with rfl | ⟨sign, _, zero, _⟩
  · exact finite
  · exact finite_iff.mpr (Or.inl ⟨sign, zero⟩)

end EchoState.Binary64

namespace EchoState

instance : CancellingScalar Float where
  isZero_neg_zero := by rfl
  isZero_sub := Binary64.isZero_sub_of_eq
  add_eq_of_isZero := Binary64.add_eq_of_isZero
  finite_of_eq := Binary64.finite_of_eq
  finite_one := by decide +kernel
  finite_half := by decide +kernel
  finite_third := by decide +kernel
  finite_sixth := by decide +kernel

end EchoState
