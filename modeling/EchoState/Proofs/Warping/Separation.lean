import EchoState.Proofs.Warping.Acceptance
import EchoState.Proofs.Warping.Backtracking

/-!
# Distance zero

With a penalty above zero, a cell of the recurrence that is not above zero was computed from its
diagonal neighbour, at no cost. So only series that are equal sample by sample are at distance zero.
Conversely the diagonal of equal series adds up to zero under every penalty, and the walk back,
which prefers the diagonal on a tie, keeps to it however many other paths cost nothing.
-/

namespace EchoState.Warping

section Table

variable {α : Type} [Scalar α] {n m : Nat} {grid : Fin n → Fin m → α} {options : Options α}

open Scalar OrderedScalar

/-- A cell that is not above zero lies on the diagonal, and every pair before it on the diagonal
costs nothing. -/
theorem Chargeable.diagonal_of_value_le [MetricScalar α] (charges : Chargeable grid options)
    (positive : lt 0 options.slopePenalty) (i j : Nat) (iLe : i ≤ n) (jLe : j ≤ m)
    (free : le (value options.rule grid i j iLe jLe) 0) :
    i = j ∧ ∀ (k : Nat) (before : k < i) (before' : k < j),
      le (grid ⟨k, Nat.lt_of_lt_of_le before iLe⟩ ⟨k, Nat.lt_of_lt_of_le before' jLe⟩) 0 := by
  have endless : ¬le (inf : α) 0 := (lt_iff.mp zero_lt_inf).2
  have charged {x : α} (nonneg : le 0 x) : ¬le (x + options.slopePenalty) 0 := fun sum =>
    (lt_iff.mp positive).2 (le_zero_of_add nonneg charges.penalty_nonneg sum).2
  fun_induction value options.rule grid i j iLe jLe with
  | case1 => exact ⟨rfl, fun k before => absurd before (Nat.not_lt_zero k)⟩
  | case2 => exact absurd free endless
  | case3 => exact absurd free endless
  | case4 i j iLe jLe _ _ diagonal above left =>
      have diagonalNonneg := charges.value_nonneg i j (Nat.le_of_lt iLe) (Nat.le_of_lt jLe)
      have aboveNonneg := charges.value_nonneg i (j + 1) (Nat.le_of_lt iLe) jLe
      have leftNonneg := charges.value_nonneg (i + 1) j iLe (Nat.le_of_lt jLe)
      unfold Rule.cell at free
      split at free
      · exact absurd free endless
      · obtain ⟨pairFree, leastFree⟩ := le_zero_of_add (charges.grid_nonneg _ _)
          (le_least diagonalNonneg (add_nonneg aboveNonneg charges.penalty_nonneg)
            (add_nonneg leftNonneg charges.penalty_nonneg)) free
        -- A penalized neighbour is above zero, so the least of the three is the diagonal one.
        rcases le_of_least_le leastFree with diagonalFree | aboveFree | leftFree
        · obtain ⟨rfl, earlier⟩ := diagonal diagonalFree
          refine ⟨rfl, fun k before _ => ?_⟩
          rcases Nat.lt_succ_iff_lt_or_eq.mp before with before | rfl
          · exact earlier k before before
          · exact pairFree
        · exact absurd aboveFree (charged aboveNonneg)
        · exact absurd leftFree (charged leftNonneg)

/-- With a penalty above zero, the last cell is not above zero exactly when the two sides are
equally long and cost nothing along the diagonal. -/
theorem Chargeable.value_le_zero_iff [MetricScalar α] (charges : Chargeable grid options)
    (usable : -1 ≤ options.window) (positive : lt 0 options.slopePenalty) :
    le (value options.rule grid n m (Nat.le_refl n) (Nat.le_refl m)) 0 ↔
      n = m ∧ FreeDiagonal grid := by
  constructor
  · exact charges.diagonal_of_value_le positive n m (Nat.le_refl n) (Nat.le_refl m)
  · rintro ⟨rfl, free⟩
    exact charges.value_diagonal usable free n (Nat.le_refl n) (Nat.le_refl n)

/-- A cell is zero exactly when it is not above zero: no cell is the negative zero. -/
theorem Chargeable.value_eq_zero_iff [AdditiveScalar α] [DiscreteScalar α]
    (charges : Chargeable grid options) {i j : Nat} {iLe : i ≤ n} {jLe : j ≤ m} :
    value options.rule grid i j iLe jLe = 0 ↔ le (value options.rule grid i j iLe jLe) 0 := by
  constructor
  · intro zero
    rw [zero]
    exact zero_le_zero
  · intro atMost
    exact DiscreteScalar.eq_of_eq (eq_iff.mpr ⟨atMost, charges.value_nonneg i j iLe jLe⟩)
      (value_ne_neg_zero _ _ _ _ _ _) SignedZeroScalar.zero_ne_neg_zero

/-- From a cell on a diagonal of zeros the walk back keeps to the diagonal. -/
theorem Chargeable.walkFrom_diagonal [AdditiveScalar α] (charges : Chargeable grid options)
    (usable : -1 ≤ options.window) (free : FreeDiagonal grid) {i : Nat} (begun : i ≠ 0)
    (iLe : i ≤ n) (jLe : i ≤ m) (rest : List (Nat × Nat)) :
    walkFrom grid options i i rest = some ((List.range i).map (fun k => (k, k)) ++ rest) := by
  induction i generalizing rest with
  | zero => exact absurd rfl begun
  | succ i ih =>
      by_cases first : i = 0
      · subst first
        exact Table.walkBack_first _
      · have turned := Table.walkBack_turn options.slopePenalty (Table.fill options.rule grid) rest
          iLe jLe (fun same => first (Prod.mk.inj same).1)
        simp only [Table.get_fill] at turned
        have below := charges.value_diagonal usable free i (Nat.le_of_lt iLe) (Nat.le_of_lt jLe)
        have above := add_nonneg (charges.value_nonneg i (i + 1) (Nat.le_of_lt iLe) jLe)
          charges.penalty_nonneg
        have left := add_nonneg (charges.value_nonneg (i + 1) i iLe (Nat.le_of_lt jLe))
          charges.penalty_nonneg
        rw [if_pos (Bool.and_eq_true_iff.mpr ⟨le_trans below above, le_trans below left⟩)] at turned
        refine turned.trans ((ih first (Nat.le_of_lt iLe) (Nat.le_of_lt jLe) _).trans ?_)
        rw [List.range_succ, List.map_append, List.append_assoc]
        rfl

end Table

section Series

variable {α : Type} [Scalar α] [MetricScalar α] {a b : Array α}
  (aFinite : ∀ x ∈ a, Scalar.finite x)

open Scalar OrderedScalar

include aFinite

theorem gapGrid_nonneg (bFinite : ∀ x ∈ b, finite x) (i : Fin a.size) (j : Fin b.size) :
    le 0 (gapGrid a b i j) :=
  gap_nonneg (aFinite _ (Array.getElem_mem i.isLt)) (bFinite _ (Array.getElem_mem j.isLt))

/-- Two series cost nothing along the diagonal exactly when they agree in every place that both
have. -/
theorem freeDiagonal_gapGrid_iff (bFinite : ∀ x ∈ b, finite x) :
    FreeDiagonal (gapGrid a b) ↔
      ∀ (i : Nat) (iLt : i < a.size) (jLt : i < b.size), eq a[i] b[i] := by
  refine forall_congr' fun i => forall_congr' fun iLt => forall_congr' fun jLt => ?_
  exact gap_le_zero_iff (aFinite _ (Array.getElem_mem iLt)) (bFinite _ (Array.getElem_mem jLt))

theorem freeDiagonal_gapGrid_self : FreeDiagonal (gapGrid a a) :=
  (freeDiagonal_gapGrid_iff aFinite aFinite).mpr fun _ iLt _ =>
    eq_self_of_finite (aFinite _ (Array.getElem_mem iLt))

variable [DiscreteScalar α]

/-- A finite series is at distance zero from itself, along the diagonal. -/
theorem align_self (aSome : a ≠ #[]) {options : Options α} (usable : options.Usable)
    {storage : Storage} (mode : options.memoryMode = storage.mode) :
    align (gapGrid a a) ⟨options.rule, storage, options.wantsPath, options.norm⟩ =
      ⟨0, if options.wantsPath then some ((List.range a.size).map fun i => (i, i)) else none⟩ := by
  have charges := usable.chargeable (gapGrid_nonneg aFinite aFinite)
  have free := freeDiagonal_gapGrid_self aFinite
  have atMost := charges.value_diagonal usable.window_usable free a.size (Nat.le_refl _)
    (Nat.le_refl _)
  have zero := charges.value_eq_zero_iff.mpr atMost
  cases wanted : options.wantsPath with
  | false =>
      rw [align_of_unwanted _ _ rfl, zero]
      rfl
  | true =>
      have table : storage = .table := by
        have same := mode.symm.trans (usable.path_kept wanted)
        cases storage with
        | table => rfl
        | twoRows | oneRow => cases same
      have finite : eq (0 : α) inf = false := by
        rw [Bool.eq_false_iff]
        exact fun same => (lt_iff.mp zero_lt_inf).2 (eq_iff.mp same).2
      have begun : a.size ≠ 0 := mt Array.eq_empty_of_size_eq_zero aSome
      rw [table, align_of_wanted]
      dsimp only
      rw [zero, finite, charges.walkFrom_diagonal usable.window_usable free begun
        (Nat.le_refl _) (Nat.le_refl _), List.append_nil]
      rfl

/-- Finite series with samples are aligned under usable options. With a penalty above zero they are
at distance zero exactly when they are equally long and numerically equal in every place. A series
is at distance zero from itself under every penalty, and a path that is asked for is the
diagonal. -/
theorem series_separated (bFinite : ∀ x ∈ b, finite x) (aSome : a ≠ #[]) (bSome : b ≠ #[])
    {options : Option (Options α)} (usable : (options.getD .standard).Usable) :
    (lt 0 (options.getD .standard).slopePenalty →
      ∃ alignment, series a b options = .ok alignment ∧
        (alignment.distance = 0 ↔ a.size = b.size ∧
          ∀ (i : Nat) (iLt : i < a.size) (jLt : i < b.size), eq a[i] b[i])) ∧
      series a a options = .ok ⟨0, if (options.getD .standard).wantsPath
        then some ((List.range a.size).map fun i => (i, i)) else none⟩ := by
  obtain ⟨storage, mode, planned⟩ := usable.exists_plan
  have charges := usable.chargeable (gapGrid_nonneg aFinite bFinite)
  constructor
  · intro positive
    have gapsNonneg := gapGrid_nonneg aFinite bFinite
    refine ⟨_, series_of_nonneg aSome bSome gapsNonneg usable planned, ?_⟩
    rw [← freeDiagonal_gapGrid_iff aFinite bFinite,
      ← charges.value_le_zero_iff usable.window_usable positive, align_distance]
    exact charges.value_eq_zero_iff
  · have itself := align_self aFinite aSome usable mode
    rw [← itself]
    exact series_of_nonneg aSome aSome (gapGrid_nonneg aFinite aFinite) usable planned

end Series

/-- Two series that differ in the sign of a zero, and one of them with itself: two of its samples
are equal, so that other paths cost nothing but their penalties. -/
theorem series_separated_binary64 :
    let a : Array Float := #[0, 0, 1]
    let b : Array Float := #[-0, 0, 1]
    let options : Option (Options Float) := some ⟨1, 0.5, true, 0, 2⟩
    (∃ alignment, series a b options = .ok alignment ∧ alignment.distance = 0) ∧
      series a a options = .ok ⟨0, some [(0, 0), (1, 1), (2, 2)]⟩ := by
  intro a b options
  have aFinite : ∀ x ∈ a, Scalar.finite x := by with_unfolding_all decide
  have bFinite : ∀ x ∈ b, Scalar.finite x := by with_unfolding_all decide
  have usable : (options.getD .standard).Usable :=
    ⟨by decide, by with_unfolding_all decide, by with_unfolding_all decide, ⟨.table, rfl⟩,
      fun _ => rfl⟩
  have positive : Scalar.lt 0 (options.getD .standard).slopePenalty := by
    with_unfolding_all decide
  have equal : ∀ (i : Nat) (iLt : i < a.size) (jLt : i < b.size), Scalar.eq a[i] b[i] := by
    with_unfolding_all decide
  obtain ⟨separated, self⟩ :=
    series_separated aFinite bFinite (by decide) (by decide) usable
  obtain ⟨alignment, aligned, zero_iff⟩ := separated positive
  exact ⟨⟨alignment, aligned, zero_iff.mpr ⟨rfl, equal⟩⟩, self⟩

end EchoState.Warping
