import EchoState.Proofs.Distance.Supremum
import EchoState.Proofs.Scalar.Gap
import Mathlib.Analysis.SpecialFunctions.Artanh
import Mathlib.Analysis.SpecialFunctions.Pow.Real

/-!
# Exact arithmetic

The real numbers as a scalar that rounds nothing. They have neither infinities nor a value that is
no number, so zero stands where a scalar has one of these, and everything is finite. A difference is
undone by a sum, and the inverse activation by the activation.
-/

namespace EchoState

/-- A real number, computed with exactly. -/
@[ext]
structure Exact where
  real : ℝ

namespace Exact

open Classical in
noncomputable instance : Scalar Exact where
  zero := ⟨0⟩
  one := ⟨1⟩
  add x y := ⟨x.real + y.real⟩
  sub x y := ⟨x.real - y.real⟩
  mul x y := ⟨x.real * y.real⟩
  div x y := ⟨x.real / y.real⟩
  neg x := ⟨-x.real⟩
  lt x y := decide (x.real < y.real)
  le x y := decide (x.real ≤ y.real)
  eq x y := decide (x.real = y.real)
  isNaN _ := false
  isInf _ := false
  abs x := ⟨|x.real|⟩
  sqrt x := ⟨Real.sqrt x.real⟩
  tanh x := ⟨Real.tanh x.real⟩
  atanh x := ⟨Real.artanh x.real⟩
  pow x y := ⟨x.real ^ y.real⟩
  inf := ⟨0⟩
  nan := ⟨0⟩
  natural n := ⟨n⟩

theorem le_iff {x y : Exact} : Scalar.le x y ↔ x.real ≤ y.real :=
  decide_eq_true_iff

theorem lt_iff {x y : Exact} : Scalar.lt x y ↔ x.real < y.real :=
  decide_eq_true_iff

instance : GapScalar Exact where
  le_refl _ := le_iff.mpr le_rfl
  le_trans forward onward := le_iff.mpr ((le_iff.mp forward).trans (le_iff.mp onward))
  le_total {x y} _ _ := by
    rw [le_iff, le_iff]
    exact le_total x.real y.real
  numbers_of_le _ := ⟨rfl, rfl⟩
  lt_iff := by
    intro x y
    rw [lt_iff, le_iff, le_iff]
    exact lt_iff_le_not_ge
  eq_iff := by
    intro x y
    rw [le_iff, le_iff]
    exact decide_eq_true_iff.trans le_antisymm_iff
  finite_zero := rfl
  isNaN_one := rfl
  abs_zero_lt_one := by
    rw [lt_iff]
    show |(0 : ℝ)| < 1
    norm_num
  isNaN_abs _ := rfl
  isNaN_sub _ _ := rfl
  abs_eq_zero {x} small := Exact.ext (le_antisymm (le_iff.mp small) (abs_nonneg x.real))
  abs_sub_self {x} _ := by
    apply Exact.ext
    show |x.real - x.real| = 0
    rw [sub_self, abs_zero]
  abs_sub_comm {x y} _ _ := Exact.ext (abs_sub_comm x.real y.real)

noncomputable instance : Distances Exact where
  between := Distance.ofOrder

instance : SupremumDistances Exact where
  between_inf _ := by
    refine Distance.ofOrder_inf (decide_eq_false ?_) (decide_eq_false ?_) (decide_eq_true rfl) _ _
    · show ¬(0 : ℝ) = (2 : ℕ)
      norm_num
    · show ¬(0 : ℝ) = 1
      norm_num

theorem add_sub_cancel (u v : Exact) : u + (v - u) = v :=
  Exact.ext (by
    show u.real + (v.real - u.real) = v.real
    ring)

theorem tanh_atanh {v : Exact} (inside : Scalar.lt (Scalar.abs v) 1) :
    Scalar.tanh (Scalar.atanh v) = v :=
  Exact.ext (Real.tanh_artanh (abs_lt.mp (lt_iff.mp inside)))

end Exact

end EchoState
