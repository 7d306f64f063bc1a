import EchoState.Proofs.Scalar.Zero
import Mathlib.Algebra.BigOperators.Fin
import Mathlib.Algebra.Ring.Invertible
import Mathlib.Algebra.GroupWithZero.Invertible

/-!
# Arithmetic of a ring

Any commutative ring as a scalar that rounds nothing, with any function of the ring as activation.
There are no infinities and nothing is no number, so every value is finite; values are compared for
equality only. Division by what has no inverse gives zero. The sum of all terms is what a sum
without its zero terms comes to.
-/

namespace EchoState

/-- A value of a ring, together with the function that is its activation. -/
@[ext]
structure Unrounded (R : Type) (activation : R → R) where
  value : R

namespace Unrounded

variable {R : Type} [CommRing R] {activation : R → R}

open Classical in
noncomputable instance : Scalar (Unrounded R activation) where
  zero := ⟨0⟩
  one := ⟨1⟩
  add x y := ⟨x.value + y.value⟩
  sub x y := ⟨x.value - y.value⟩
  mul x y := ⟨x.value * y.value⟩
  div x y := ⟨x.value * Ring.inverse y.value⟩
  neg x := ⟨-x.value⟩
  lt _ _ := false
  le x y := decide (x.value = y.value)
  eq x y := decide (x.value = y.value)
  isNaN _ := false
  isInf _ := false
  abs x := x
  sqrt x := x
  tanh x := ⟨activation x.value⟩
  atanh x := x
  pow x _ := x
  inf := ⟨0⟩
  nan := ⟨0⟩
  natural n := ⟨n⟩

@[simp]
theorem value_zero : (0 : Unrounded R activation).value = 0 :=
  rfl

@[simp]
theorem value_one : (1 : Unrounded R activation).value = 1 :=
  rfl

@[simp]
theorem value_add (x y : Unrounded R activation) : (x + y).value = x.value + y.value :=
  rfl

@[simp]
theorem value_sub (x y : Unrounded R activation) : (x - y).value = x.value - y.value :=
  rfl

@[simp]
theorem value_mul (x y : Unrounded R activation) : (x * y).value = x.value * y.value :=
  rfl

@[simp]
theorem value_tanh (x : Unrounded R activation) : (Scalar.tanh x).value = activation x.value :=
  rfl

theorem finite_value (x : Unrounded R activation) : Scalar.finite x = true :=
  rfl

open Classical in
theorem isZero_iff {x : Unrounded R activation} : Scalar.isZero x = true ↔ x.value = 0 :=
  decide_eq_true_iff

/-- A quotient of numbers is a multiple of the inverse. -/
theorem value_ratio (p : Nat) {q : Nat} {divisor : R} [Invertible divisor]
    (same : (q : R) = divisor) :
    (Scalar.ratio p q : Unrounded R activation).value = p * ⅟divisor := by
  subst same
  exact congrArg ((p : R) * ·) (Ring.inverse_invertible (q : R))

/-- A sum that leaves out zeros only is the sum of all terms. -/
theorem value_sumWhere (n : Nat) {keep : Fin n → Bool} {term : Fin n → Unrounded R activation}
    (zeros : ∀ i, keep i = false → (term i).value = 0) :
    (Scalar.sumWhere n keep term).value = ∑ i, (term i).value := by
  induction n with
  | zero => rfl
  | succ n ih =>
      have earlier := ih fun i left => zeros i.castSucc left
      rw [Scalar.sumWhere_succ, Fin.sum_univ_castSucc, ← earlier]
      cases kept : keep (Fin.last n) with
      | true => rfl
      | false => rw [zeros _ kept, add_zero]; rfl

end Unrounded

end EchoState
