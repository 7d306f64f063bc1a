import EchoState.Proofs.Distance.Euclidean
import EchoState.Proofs.Warping.Optimality

/-!
# A series beside itself

Where the costs along the diagonal of a grid are zero and no cost is negative, every cell of the
recurrence on the diagonal is zero, and it is never the negative zero. So a finite trajectory is at
distance zero from itself.
-/

namespace EchoState.Warping

section Diagonal

variable {α : Type} [Scalar α] [AdditiveScalar α]

open Scalar OrderedScalar AdditiveScalar SignedZeroScalar

section NegativeZero

variable [SignedZeroScalar α]

theorem inf_ne_neg_zero : (inf : α) ≠ -0 := by
  intro negative
  have sum : (inf : α) + 0 = -0 := (AdditiveScalar.inf_add zero_le_zero).trans negative
  exact zero_ne_neg_zero (neg_zeros_of_add sum).2

theorem value_ne_neg_zero {n m : Nat} (rule : Rule α) (cost : Fin n → Fin m → α) (i j : Nat)
    (iLe : i ≤ n) (jLe : j ≤ m) : value rule cost i j iLe jLe ≠ -0 := by
  fun_induction value rule cost i j iLe jLe with
  | case1 => exact zero_ne_neg_zero
  | case2 => exact inf_ne_neg_zero
  | case3 => exact inf_ne_neg_zero
  | case4 i j iLe jLe _ _ diagonal above left =>
      unfold Rule.cell
      split
      · exact inf_ne_neg_zero
      · intro negative
        have least := (neg_zeros_of_add negative).2
        rcases least_eq (value rule cost i j (Nat.le_of_succ_le iLe) (Nat.le_of_succ_le jLe))
          (value rule cost i (j + 1) (Nat.le_of_succ_le iLe) jLe + rule.penalty)
          (value rule cost (i + 1) j iLe (Nat.le_of_succ_le jLe) + rule.penalty) with
          same | same | same
        · exact diagonal (same.symm.trans least)
        · exact above (neg_zeros_of_add (same.symm.trans least)).1
        · exact left (neg_zeros_of_add (same.symm.trans least)).1

end NegativeZero

variable {n m : Nat} {grid : Fin n → Fin m → α} {options : Options α}

/-- Every pair of samples at one place of the two sides costs nothing. -/
def FreeDiagonal (grid : Fin n → Fin m → α) : Prop :=
  ∀ (i : Nat) (iLt : i < n) (jLt : i < m), le (grid ⟨i, iLt⟩ ⟨i, jLt⟩) 0

/-- Along a diagonal of zeros nothing is added up. -/
theorem Chargeable.value_diagonal (charges : Chargeable grid options)
    (usable : -1 ≤ options.window) (free : FreeDiagonal grid) (i : Nat) (iLe : i ≤ n)
    (jLe : i ≤ m) : le (value options.rule grid i i iLe jLe) 0 := by
  induction i with
  | zero =>
      rw [value_corner]
      exact zero_le_zero
  | succ i ih =>
      have inBand : InBand options.window i i := by
        unfold InBand
        omega
      have bound := charges.value_inner_le usable iLe jLe inBand
        (Or.inl (ih (Nat.le_of_lt iLe) (Nat.le_of_lt jLe)))
      have nonneg := charges.grid_nonneg ⟨i, iLe⟩ ⟨i, jLe⟩
      have charge := Scalar.le_of_eq (AdditiveScalar.add_zero nonneg)
      exact le_trans bound (le_trans charge (free i iLe jLe))

end Diagonal

/-! ## Trajectories -/

open Binary64

theorem resolve_none : Options.resolve (none : Option (Options Float)) =
    .ok ⟨Options.standard.rule, .twoRows, false, Scalar.natural 2⟩ := by
  with_unfolding_all rfl

/-- The distances of the columns of two sheets. -/
def columnCosts {channels n m : Nat} (a : Sheet Float channels n) (b : Sheet Float channels m)
    (i : Fin (Array.ofFn fun j : Fin n => (a.column j).toList).size)
    (j : Fin (Array.ofFn fun j : Fin m => (b.column j).toList).size) : Float :=
  Distances.between (Scalar.natural 2) (Array.ofFn fun j : Fin n => (a.column j).toList)[i]
    (Array.ofFn fun j : Fin m => (b.column j).toList)[j]

/-- Stored trajectories of the same channels, with samples, are aligned without options. -/
theorem trajectories_stored {channels n m : Nat} (aFits : channels * n < wordLimit)
    (bFits : channels * m < wordLimit) (a : Sheet Float channels n) (b : Sheet Float channels m)
    (aSome : n ≠ 0) (bSome : m ≠ 0) :
    trajectories (.stored ⟨channels, n, a⟩) (.stored ⟨channels, m, b⟩) none =
      .ok (align (columnCosts a b)
        ⟨Options.standard.rule, .twoRows, false, Scalar.natural 2⟩) := by
  unfold trajectories
  rw [if_neg (by simp [Operand.isAbsent]), if_neg (by simp [Operand.rows]),
    if_neg (by simp [Operand.cols, aSome, bSome]), resolve_none, Outcome.ok_bind]
  dsimp only
  rw [if_neg (by with_unfolding_all decide), columns_stored aFits, columns_stored bFits]
  rfl

/-- The columns of a finite sheet are finite samples. -/
theorem finite_of_column {channels n : Nat} {a : Sheet Float channels n}
    (finite : ∀ i j, Scalar.finite (a.get i j) = true)
    (j : Fin (Array.ofFn fun j : Fin n => (a.column j).toList).size) :
    ∀ x ∈ (Array.ofFn fun j : Fin n => (a.column j).toList)[j], Scalar.finite x = true := by
  intro x isEntry
  simp only [Fin.getElem_fin, Array.getElem_ofFn, Vector.mem_toList_iff] at isEntry
  obtain ⟨i, inside, rfl⟩ := Vector.mem_iff_getElem.mp isEntry
  rw [Sheet.getElem_column]
  exact finite _ _

theorem length_column {channels n : Nat} (a : Sheet Float channels n)
    (j : Fin (Array.ofFn fun j : Fin n => (a.column j).toList).size) :
    (Array.ofFn fun j : Fin n => (a.column j).toList)[j].length = channels := by
  rw [Fin.getElem_fin, Array.getElem_ofFn, Vector.length_toList]

/-- A finite trajectory with samples is at distance zero from itself. -/
theorem trajectories_self {m : Matrix Float} (fits : m.rows * m.cols < wordLimit)
    (some : m.cols ≠ 0)
    (finite : ∀ i j, Scalar.finite (m.sheet.get i j) = true) :
    trajectories (.stored m) (.stored m) none = .ok ⟨0, none⟩ := by
  obtain ⟨channels, n, a⟩ := m
  have charges : Chargeable (columnCosts a a) Options.standard :=
    ⟨fun i j => EuclideanDistances.between_two_nonneg (finite_of_column finite i)
        (finite_of_column finite j) ((length_column a i).trans (length_column a j).symm),
      Scalar.zero_le_zero⟩
  have free : FreeDiagonal (columnCosts a a) := by
    intro i iLt jLt
    have zero : columnCosts a a ⟨i, iLt⟩ ⟨i, jLt⟩ = 0 :=
      EuclideanDistances.between_two_self (finite_of_column finite ⟨i, iLt⟩)
    rw [zero]
    exact Scalar.zero_le_zero
  have atMost := charges.value_diagonal (by decide) free _ (Nat.le_refl _) (Nat.le_refl _)
  have atLeast := charges.value_nonneg _ _ (Nat.le_refl _) (Nat.le_refl _)
  have zero := eq_zero_of_isZero (OrderedScalar.eq_iff.mpr ⟨atMost, atLeast⟩)
    (value_ne_neg_zero _ _ _ _ _ _)
  rw [trajectories_stored fits fits a a some some, align_of_unwanted _ _ rfl, zero]

end EchoState.Warping
