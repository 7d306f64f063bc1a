import EchoState.Scalar

/-!
# Sums and the two zeros

A sum that starts at zero never becomes the negative zero, so adding a zero of either sign does not
change it. Terms that are zero may therefore be left out of a sum, whatever the rule by which they
are left out.
-/

namespace EchoState

/-- A scalar with a negative zero beside its zero: a finite multiple of a zero is a zero, adding a
zero changes at most the negative zero, and only negative zeros add up to the negative zero. -/
class SignedZeroScalar (α : Type) [Scalar α] : Prop where
  zero_ne_neg_zero : (0 : α) ≠ -0
  isZero_mul_right : ∀ {x z : α}, Scalar.finite x → Scalar.isZero z → Scalar.isZero (x * z)
  isZero_mul_left : ∀ {x z : α}, Scalar.finite x → Scalar.isZero z → Scalar.isZero (z * x)
  add_of_isZero : ∀ {x z : α}, Scalar.isZero z → x ≠ -0 → x + z = x
  neg_zeros_of_add : ∀ {x y : α}, x + y = -0 → x = -0 ∧ y = -0

/-- A scalar whose numerically equal values are the same value, the negative zero apart. -/
class DiscreteScalar (α : Type) [Scalar α] : Prop extends SignedZeroScalar α where
  eq_of_eq : ∀ {x y : α}, Scalar.eq x y → x ≠ -0 → y ≠ -0 → x = y

namespace Scalar

variable {α : Type} [Scalar α]

/-- A sum that leaves out terms runs from left to right over the indices that are kept. -/
theorem sumWhere_eq_foldl (n : Nat) (keep : Fin n → Bool) (term : Fin n → α) :
    sumWhere n keep term =
      ((List.finRange n).filter keep).foldl (fun total i => total + term i) 0 := by
  induction n with
  | zero => rfl
  | succ n ih =>
      rw [sumWhere_succ, ih, List.finRange_succ_last, List.filter_append, List.foldl_append,
        List.filter_map, List.foldl_map]
      cases kept : keep (Fin.last n) with
      | true => simp [kept, Function.comp_def]
      | false => simp [kept, Function.comp_def]

/-- Sums that keep the same indices, and at each of them the same term, are the same. -/
theorem sumWhere_congr (n : Nat) {keep keep' : Fin n → Bool} {term term' : Fin n → α}
    (kept : ∀ i, keep i = keep' i) (terms : ∀ i, keep i = true → term i = term' i) :
    sumWhere n keep term = sumWhere n keep' term' := by
  induction n with
  | zero => rfl
  | succ n ih =>
      rw [sumWhere_succ, sumWhere_succ, kept,
        ih (fun i => kept i.castSucc) fun i => terms i.castSucc]
      cases last : keep' (Fin.last n) with
      | true => rw [if_pos rfl, if_pos rfl, terms _ ((kept _).trans last)]
      | false => rfl

theorem sumWhere_of_none (n : Nat) {keep : Fin n → Bool} (term : Fin n → α)
    (none : ∀ i, keep i = false) : sumWhere n keep term = 0 := by
  induction n with
  | zero => rfl
  | succ n ih =>
      rw [sumWhere_succ, none (Fin.last n), if_neg Bool.false_ne_true]
      exact ih _ fun i => none i.castSucc

theorem sumWhere_single {n : Nat} {keep : Fin n → Bool} (term : Fin n → α) (i : Fin n)
    (only : ∀ k, keep k = decide (k = i)) : sumWhere n keep term = 0 + term i := by
  induction n with
  | zero => exact i.elim0
  | succ n ih =>
      rw [sumWhere_succ, only]
      cases i using Fin.lastCases with
      | last =>
          rw [if_pos (decide_eq_true rfl), sumWhere_of_none]
          intro k
          rw [only]
          exact decide_eq_false (Fin.ne_of_lt (Fin.castSucc_lt_last k))
      | cast i =>
          have notLast : Fin.last n ≠ i.castSucc := Fin.ne_of_gt (Fin.castSucc_lt_last i)
          rw [if_neg (by simpa using notLast)]
          refine ih _ i fun k => ?_
          rw [only]
          exact decide_eq_decide.mpr Fin.castSucc_inj

variable [SignedZeroScalar α]

open SignedZeroScalar

theorem sumWhere_ne_neg_zero (n : Nat) (keep : Fin n → Bool) (term : Fin n → α) :
    sumWhere n keep term ≠ -0 := by
  induction n with
  | zero => exact zero_ne_neg_zero
  | succ n ih =>
      rw [sumWhere_succ]
      split
      · intro negative
        exact ih _ _ (neg_zeros_of_add negative).1
      · exact ih _ _

/-- A sum that leaves out zeros only is the sum of all terms. -/
theorem sumWhere_eq_sum (n : Nat) (keep : Fin n → Bool) (term : Fin n → α)
    (zeros : ∀ i, keep i = false → isZero (term i)) :
    sumWhere n keep term = sumWhere n (fun _ => true) term := by
  induction n with
  | zero => rfl
  | succ n ih =>
      have earlier := ih (fun i => keep i.castSucc) (fun i => term i.castSucc)
        fun i left => zeros i.castSucc left
      rw [sumWhere_succ, sumWhere_succ, earlier, if_pos rfl]
      cases kept : keep (Fin.last n) with
      | true => rw [if_pos rfl]
      | false =>
          rw [if_neg Bool.false_ne_true,
            add_of_isZero (zeros (Fin.last n) kept) (sumWhere_ne_neg_zero n _ _)]

/-- Two sums that leave out zeros only are the same. -/
theorem sumWhere_congr_zeros (n : Nat) {keep keep' : Fin n → Bool} {term : Fin n → α}
    (zeros : ∀ i, keep i = false → isZero (term i))
    (zeros' : ∀ i, keep' i = false → isZero (term i)) :
    sumWhere n keep term = sumWhere n keep' term :=
  (sumWhere_eq_sum n keep term zeros).trans (sumWhere_eq_sum n keep' term zeros').symm

theorem sumWhere_of_isZero (n : Nat) (keep : Fin n → Bool) {term : Fin n → α}
    (zeros : ∀ i, isZero (term i)) : sumWhere n keep term = 0 := by
  induction n with
  | zero => rfl
  | succ n ih =>
      rw [sumWhere_succ, ih _ fun i => zeros i.castSucc,
        add_of_isZero (zeros (Fin.last n)) zero_ne_neg_zero, ite_self]

end Scalar

end EchoState
