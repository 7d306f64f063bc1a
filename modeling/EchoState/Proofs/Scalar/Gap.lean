import EchoState.Proofs.Scalar.Absorption

/-!
# Gaps between finite values

The size of a difference of finite values is a number, does not depend on which of them is taken
from the other, and vanishes between a value and itself. The running scalar keeps these laws:
rounding treats a number and its opposite alike.
-/

namespace EchoState

class GapScalar (α : Type) [Scalar α] : Prop extends MeasuredScalar α where
  isNaN_sub : ∀ {x y : α}, Scalar.finite x → Scalar.finite y → Scalar.isNaN (x - y) = false
  /-- A size that is not above zero is zero itself. -/
  abs_eq_zero : ∀ {x : α}, Scalar.le (Scalar.abs x) 0 → Scalar.abs x = 0
  abs_sub_self : ∀ {x : α}, Scalar.finite x → Scalar.abs (x - x) = 0
  abs_sub_comm : ∀ {x y : α}, Scalar.finite x → Scalar.finite y →
    Scalar.abs (x - y) = Scalar.abs (y - x)

end EchoState

namespace EchoState.Binary64

open Float.Model Float.Model.UnpackedFloat

/-! ## Rounding does not look at the sign -/

theorem abs_roundWithAccuracy (s t : Sign) (m : Nat) (e : Int) (accuracy : Accuracy) :
    (roundWithAccuracy Format.binary64 s m e accuracy).abs =
      (roundWithAccuracy Format.binary64 t m e accuracy).abs := by
  unfold roundWithAccuracy
  dsimp only
  split <;> rfl

theorem abs_round (s t : Sign) (m : Nat) (e : Int) :
    (UnpackedFloat.round Format.binary64 s m e).abs =
      (UnpackedFloat.round Format.binary64 t m e).abs :=
  abs_roundWithAccuracy s t _ _ _

/-- Opposite sums are rounded to numbers of one size. -/
theorem abs_normalize_neg (n e : Int) :
    (UnpackedFloat.normalize Format.binary64 (-n) e .positive).abs =
      (UnpackedFloat.normalize Format.binary64 n e .positive).abs := by
  unfold UnpackedFloat.normalize
  rcases Int.lt_trichotomy n 0 with below | rfl | above
  · rw [Int.compare_eq_gt.mpr (Int.neg_pos_of_neg below), Int.compare_eq_lt.mpr below]
    exact abs_round .positive .negative _ _
  · rfl
  · rw [Int.compare_eq_lt.mpr (Int.neg_neg_of_pos above), Int.compare_eq_gt.mpr above, Int.neg_neg]
    exact abs_round .negative .positive _ _

theorem abs_repacked {a : UnpackedFloat} (isKept : IsKept a) :
    (repacked a).abs = repacked a.abs := by
  cases a with
  | notANumber => cases isKept
  | infinity sign => cases isKept
  | zero sign =>
      rw [repacked_of_representable (a := .zero sign) trivial]
      exact (repacked_of_representable (a := .zero .positive) trivial).symm
  | finite sign m e positive =>
      unfold repacked
      rw [unpack_pack_finite sign positive isKept]
      refine Eq.trans ?_ (unpack_pack_finite .positive positive isKept).symm
      split <;> rfl

theorem abs_sub_comm_unpacked (a b : UnpackedFloat) :
    (UnpackedFloat.sub Format.binary64 a b).abs = (UnpackedFloat.sub Format.binary64 b a).abs := by
  cases a with
  | notANumber => cases b <;> rfl
  | infinity s =>
      cases b with
      | infinity t => cases s <;> cases t <;> rfl
      | notANumber | zero | finite => rfl
  | zero s =>
      cases b with
      | zero t => cases s <;> cases t <;> rfl
      | notANumber | infinity | finite => rfl
  | finite s m e positive =>
      cases b with
      | notANumber | infinity | zero => rfl
      | finite t m' e' positive' =>
          unfold UnpackedFloat.sub
          dsimp only
          rw [← Int.neg_sub, Int.min_comm]
          exact abs_normalize_neg _ _

/-- A difference with what is not finite needs no rounding. -/
theorem repacked_sub_of_not_kept {a b : UnpackedFloat} (notKept : ¬(IsKept a ∧ IsKept b))
    (aHas : Representable a) (bHas : Representable b) :
    repacked (UnpackedFloat.sub Format.binary64 a b) = UnpackedFloat.sub Format.binary64 a b := by
  apply repacked_of_representable
  cases a with
  | notANumber => cases b <;> trivial
  | infinity s =>
      cases b with
      | infinity t => cases s <;> cases t <;> trivial
      | notANumber | zero | finite => trivial
  | zero s =>
      cases b with
      | zero t => exact absurd ⟨trivial, trivial⟩ notKept
      | finite t m e positive => exact absurd ⟨trivial, bHas.1⟩ notKept
      | notANumber | infinity => trivial
  | finite s m e positive =>
      cases b with
      | zero t => exact absurd ⟨aHas.1, trivial⟩ notKept
      | finite t m' e' positive' => exact absurd ⟨aHas.1, bHas.1⟩ notKept
      | notANumber | infinity => trivial

theorem abs_sub_comm (x y : Float) : Scalar.abs (x - y) = Scalar.abs (y - x) := by
  apply value_injective
  rw [value_abs, value_abs, value_sub, value_sub]
  by_cases kept : IsKept (value x) ∧ IsKept (value y)
  · rw [abs_repacked (rounds_sub kept.1 kept.2).kept, abs_repacked (rounds_sub kept.2 kept.1).kept,
      abs_sub_comm_unpacked]
  · have xHas := representable_value x
    have yHas := representable_value y
    rw [repacked_sub_of_not_kept kept xHas yHas,
      repacked_sub_of_not_kept (fun both => kept both.symm) yHas xHas, abs_sub_comm_unpacked]

theorem sub_self_of_finite {x : Float} (finite : Scalar.finite x) : x - x = 0 := by
  have difference : UnpackedFloat.sub Format.binary64 (value x) (value x) = .zero .positive := by
    rcases finite_iff.mp finite with ⟨sign, same⟩ | ⟨sign, m, e, positive, same⟩
    · rw [same]
      cases sign <;> rfl
    · rw [same]
      unfold UnpackedFloat.sub
      dsimp only
      rw [Int.sub_self]
      rfl
  apply value_injective
  rw [value_sub, difference, value_zero]
  exact repacked_of_representable (a := .zero .positive) trivial

theorem abs_eq_zero {x : Float} (small : Scalar.le (Scalar.abs x) 0) : Scalar.abs x = 0 := by
  obtain ⟨number, _, small⟩ := le_iff.mp small
  rw [← isNaN_value] at number
  apply value_injective
  rw [value_zero]
  rw [value_abs] at number small ⊢
  cases same : value x with
  | notANumber =>
      rw [same] at number
      cases number
  | infinity sign =>
      rw [same, value_zero] at small
      exact absurd small (not_le.mpr (Int.natCast_pos.mpr ceiling_pos))
  | zero sign => rfl
  | finite sign m e positive =>
      rw [same, value_zero] at small
      exact absurd small (not_le.mpr (Int.natCast_pos.mpr (magnitude_pos e positive)))

end EchoState.Binary64

namespace EchoState

instance : GapScalar Float where
  isNaN_sub := Binary64.isNaN_sub
  abs_eq_zero := Binary64.abs_eq_zero
  abs_sub_self finite := by
    rw [Binary64.sub_self_of_finite finite]
    rfl
  abs_sub_comm {x y} _ _ := Binary64.abs_sub_comm x y

end EchoState
