import EchoState.Proofs.Scalar.Float
import EchoState.Proofs.Warping.Recurrence

/-!
# Alignments are optimal

A path through the grid of sample pairs starts at the first pair and advances the first series,
the second one or both at every step. Its cost is accumulated in travel order: a diagonal step adds
the cost of the new pair to what was accumulated before, any other step adds the penalty first. The
recurrence bounds the cost of every path inside the band from below, and some path attains it
unless there is none; so the distance of an alignment is the least cost of a path, or infinite.
-/

namespace EchoState.Warping

/-- A path from the first pair of samples to the pair with the given indices. -/
inductive Path : Nat → Nat → Type where
  | start : Path 0 0
  | diagonal {i j : Nat} (before : Path i j) : Path (i + 1) (j + 1)
  | down {i j : Nat} (before : Path i j) : Path (i + 1) j
  | across {i j : Nat} (before : Path i j) : Path i (j + 1)

/-- The pair of indices lies in the band of a window; the window -1 is no band. -/
def InBand (window : Int) (i j : Nat) : Prop :=
  window = -1 ∨ ((i : Int) - (j : Int)).natAbs ≤ window

namespace Path

/-- The pairs of indices that a path visits, in travel order. -/
def cells : {i j : Nat} → Path i j → List (Nat × Nat)
  | _, _, .start => [(0, 0)]
  | _, _, @diagonal i j before => before.cells ++ [(i + 1, j + 1)]
  | _, _, @down i j before => before.cells ++ [(i + 1, j)]
  | _, _, @across i j before => before.cells ++ [(i, j + 1)]

section Cells

variable {P : Nat × Nat → Prop} {i j : Nat} {before : Path i j}

theorem forall_mem_cells_diagonal :
    (∀ cell ∈ before.diagonal.cells, P cell) ↔
      (∀ cell ∈ before.cells, P cell) ∧ P (i + 1, j + 1) := by
  rw [cells, List.forall_mem_append, List.forall_mem_singleton]

theorem forall_mem_cells_down :
    (∀ cell ∈ before.down.cells, P cell) ↔ (∀ cell ∈ before.cells, P cell) ∧ P (i + 1, j) := by
  rw [cells, List.forall_mem_append, List.forall_mem_singleton]

theorem forall_mem_cells_across :
    (∀ cell ∈ before.across.cells, P cell) ↔ (∀ cell ∈ before.cells, P cell) ∧ P (i, j + 1) := by
  rw [cells, List.forall_mem_append, List.forall_mem_singleton]

end Cells

/-- Every pair that the path visits lies in the band. -/
def Within (window : Int) {i j : Nat} (path : Path i j) : Prop :=
  ∀ cell ∈ path.cells, InBand window cell.1 cell.2

section Within

variable {window : Int} {i j : Nat}

theorem within_start : (start : Path 0 0).Within window ↔ InBand window 0 0 :=
  List.forall_mem_singleton

theorem within_diagonal {before : Path i j} :
    before.diagonal.Within window ↔ before.Within window ∧ InBand window (i + 1) (j + 1) :=
  forall_mem_cells_diagonal

theorem within_down {before : Path i j} :
    before.down.Within window ↔ before.Within window ∧ InBand window (i + 1) j :=
  forall_mem_cells_down

theorem within_across {before : Path i j} :
    before.across.Within window ↔ before.Within window ∧ InBand window i (j + 1) :=
  forall_mem_cells_across

end Within

variable {α : Type} [Scalar α] {n m : Nat}

/-- The cost accumulated along a path. -/
def cost (grid : Fin n → Fin m → α) (penalty : α) :
    {i j : Nat} → Path i j → i < n → j < m → α
  | _, _, .start, iLt, jLt => grid ⟨0, iLt⟩ ⟨0, jLt⟩
  | _, _, @diagonal i j before, iLt, jLt =>
      grid ⟨i + 1, iLt⟩ ⟨j + 1, jLt⟩ +
        before.cost grid penalty (Nat.lt_of_succ_lt iLt) (Nat.lt_of_succ_lt jLt)
  | _, _, @down i j before, iLt, jLt =>
      grid ⟨i + 1, iLt⟩ ⟨j, jLt⟩ +
        (before.cost grid penalty (Nat.lt_of_succ_lt iLt) jLt + penalty)
  | _, _, @across i j before, iLt, jLt =>
      grid ⟨i, iLt⟩ ⟨j + 1, jLt⟩ +
        (before.cost grid penalty iLt (Nat.lt_of_succ_lt jLt) + penalty)

end Path

/-- The rule of options, whatever the storage. -/
def Options.rule {α : Type} [Scalar α] (options : Options α) : Rule α :=
  ⟨options.band, options.slopePenalty⟩

/-- A cell is computed exactly when its pair of samples lies in the band. -/
theorem outside_rule_eq_false_iff {α : Type} [Scalar α] (options : Options α)
    (usable : -1 ≤ options.window) (i j : Nat) :
    options.rule.outside i j = false ↔ InBand options.window i j := by
  unfold Options.rule Rule.outside Options.band InBand
  by_cases negative : options.window < 0
  · simp only [if_pos negative, true_iff]
    omega
  · simp only [if_neg negative, decide_eq_false_iff_not]
    omega

theorem cell_of_inBand {α : Type} [Scalar α] {n m : Nat} (grid : Fin n → Fin m → α)
    (options : Options α) (usable : -1 ≤ options.window) (i : Fin n) (j : Fin m)
    (inBand : InBand options.window i j) (diagonal above left : α) :
    options.rule.cell grid i j diagonal above left =
      grid i j +
        Scalar.least diagonal (above + options.slopePenalty) (left + options.slopePenalty) := by
  have inside := (outside_rule_eq_false_iff options usable i j).mpr inBand
  simp only [Rule.cell, inside]
  rfl

/-- What a cell can be: infinite, or in the band and one of three sums. -/
theorem value_cases {α : Type} [Scalar α] {n m : Nat} (grid : Fin n → Fin m → α)
    (options : Options α) (usable : -1 ≤ options.window) {i j : Nat} (iLt : i < n) (jLt : j < m) :
    value options.rule grid (i + 1) (j + 1) iLt jLt = Scalar.inf ∨
      InBand options.window i j ∧
        (value options.rule grid (i + 1) (j + 1) iLt jLt =
            grid ⟨i, iLt⟩ ⟨j, jLt⟩ +
              value options.rule grid i j (Nat.le_of_lt iLt) (Nat.le_of_lt jLt) ∨
          value options.rule grid (i + 1) (j + 1) iLt jLt =
            grid ⟨i, iLt⟩ ⟨j, jLt⟩ +
              (value options.rule grid i (j + 1) (Nat.le_of_lt iLt) jLt + options.slopePenalty) ∨
          value options.rule grid (i + 1) (j + 1) iLt jLt =
            grid ⟨i, iLt⟩ ⟨j, jLt⟩ +
              (value options.rule grid (i + 1) j iLt (Nat.le_of_lt jLt) +
                options.slopePenalty)) := by
  by_cases inBand : InBand options.window i j
  · rw [value_inner, cell_of_inBand grid options usable ⟨i, iLt⟩ ⟨j, jLt⟩ inBand]
    refine Or.inr ⟨inBand, ?_⟩
    exact (Scalar.least_eq _ _ _).imp (congrArg _) (Or.imp (congrArg _) (congrArg _))
  · have outside : options.rule.outside i j = true := by
      rw [← Bool.not_eq_false, outside_rule_eq_false_iff options usable]
      exact inBand
    rw [value_inner]
    exact Or.inl (if_pos outside)

/-- Costs and penalty are numbers from zero up. -/
structure Chargeable {α : Type} [Scalar α] {n m : Nat} (grid : Fin n → Fin m → α)
    (options : Options α) : Prop where
  grid_nonneg : ∀ i j, Scalar.le 0 (grid i j)
  penalty_nonneg : Scalar.le 0 options.slopePenalty

namespace Chargeable

variable {α : Type} [Scalar α] [AdditiveScalar α] {n m : Nat}
variable {grid : Fin n → Fin m → α} {options : Options α}

open Scalar OrderedScalar AdditiveScalar

theorem cost_nonneg (charges : Chargeable grid options) {i j : Nat} (path : Path i j)
    (iLt : i < n) (jLt : j < m) : le 0 (path.cost grid options.slopePenalty iLt jLt) := by
  have penalized {x : α} (nonneg : le 0 x) : le 0 (x + options.slopePenalty) :=
    add_nonneg nonneg charges.penalty_nonneg
  induction path with
  | start => exact charges.grid_nonneg _ _
  | diagonal before ih => exact add_nonneg (charges.grid_nonneg _ _) (ih _ _)
  | down before ih => exact add_nonneg (charges.grid_nonneg _ _) (penalized (ih _ _))
  | across before ih => exact add_nonneg (charges.grid_nonneg _ _) (penalized (ih _ _))

theorem value_nonneg (charges : Chargeable grid options) (i j : Nat) (iLe : i ≤ n)
    (jLe : j ≤ m) : le 0 (value options.rule grid i j iLe jLe) := by
  fun_induction value options.rule grid i j iLe jLe with
  | case1 => exact zero_le_zero
  | case2 => exact zero_le_inf
  | case3 => exact zero_le_inf
  | case4 i j iLe jLe _ _ diagonalNonneg aboveNonneg leftNonneg =>
      unfold Rule.cell
      split
      · exact zero_le_inf
      · apply add_nonneg (charges.grid_nonneg _ _)
        exact le_least diagonalNonneg (add_nonneg aboveNonneg charges.penalty_nonneg)
          (add_nonneg leftNonneg charges.penalty_nonneg)

/-- The value of a cell in the band is at most its cost plus any of the three amounts that it is
computed from, or plus anything above one of these. -/
theorem value_inner_le (charges : Chargeable grid options) (usable : -1 ≤ options.window)
    {i j : Nat} (iLt : i < n) (jLt : j < m) (inBand : InBand options.window i j) {amount : α}
    (above : le (value options.rule grid i j (Nat.le_of_lt iLt) (Nat.le_of_lt jLt)) amount ∨
      le (value options.rule grid i (j + 1) (Nat.le_of_lt iLt) jLt + options.slopePenalty)
        amount ∨
      le (value options.rule grid (i + 1) j iLt (Nat.le_of_lt jLt) + options.slopePenalty)
        amount) :
    le (value options.rule grid (i + 1) (j + 1) iLt jLt) (grid ⟨i, iLt⟩ ⟨j, jLt⟩ + amount) := by
  rw [value_inner, cell_of_inBand grid options usable ⟨i, iLt⟩ ⟨j, jLt⟩ inBand]
  have diagonalNonneg := charges.value_nonneg i j (Nat.le_of_lt iLt) (Nat.le_of_lt jLt)
  have aboveNonneg := add_nonneg
    (charges.value_nonneg i (j + 1) (Nat.le_of_lt iLt) jLt) charges.penalty_nonneg
  have leftNonneg := add_nonneg
    (charges.value_nonneg (i + 1) j iLt (Nat.le_of_lt jLt)) charges.penalty_nonneg
  obtain ⟨leDiagonal, leAbove, leLeft⟩ := least_le (number_of_nonneg diagonalNonneg)
    (number_of_nonneg aboveNonneg) (number_of_nonneg leftNonneg)
  have gridNonneg := charges.grid_nonneg ⟨i, iLt⟩ ⟨j, jLt⟩
  apply add_le_add gridNonneg (le_refl (number_of_nonneg gridNonneg))
    (le_least diagonalNonneg aboveNonneg leftNonneg)
  rcases above with bound | bound | bound
  · exact le_trans leDiagonal bound
  · exact le_trans leAbove bound
  · exact le_trans leLeft bound

theorem penalized_le_penalized (charges : Chargeable grid options) {x y : α} (nonneg : le 0 x)
    (atMost : le x y) : le (x + options.slopePenalty) (y + options.slopePenalty) :=
  add_le_add nonneg atMost charges.penalty_nonneg
    (le_refl (number_of_nonneg charges.penalty_nonneg))

/-- No path in the band costs less than the value of the cell it leads to. -/
theorem value_le_cost (charges : Chargeable grid options) (usable : -1 ≤ options.window)
    {i j : Nat} (path : Path i j) (iLt : i < n) (jLt : j < m)
    (within : path.Within options.window) :
    le (value options.rule grid (i + 1) (j + 1) iLt jLt)
      (path.cost grid options.slopePenalty iLt jLt) := by
  induction path with
  | start =>
      have first := charges.value_inner_le usable iLt jLt (Path.within_start.mp within)
        (Or.inl (by rw [value_corner]; exact zero_le_zero))
      exact le_trans first (le_of_eq (add_zero (charges.grid_nonneg _ _)))
  | diagonal before ih =>
      obtain ⟨earlier, inBand⟩ := Path.within_diagonal.mp within
      exact charges.value_inner_le usable iLt jLt inBand (Or.inl (ih _ _ earlier))
  | down before ih =>
      obtain ⟨earlier, inBand⟩ := Path.within_down.mp within
      have bound := charges.penalized_le_penalized (charges.value_nonneg _ _ _ _)
        (ih (Nat.lt_of_succ_lt iLt) jLt earlier)
      exact charges.value_inner_le usable iLt jLt inBand (Or.inr (Or.inl bound))
  | across before ih =>
      obtain ⟨earlier, inBand⟩ := Path.within_across.mp within
      have bound := charges.penalized_le_penalized (charges.value_nonneg _ _ _ _)
        (ih iLt (Nat.lt_of_succ_lt jLt) earlier)
      exact charges.value_inner_le usable iLt jLt inBand (Or.inr (Or.inr bound))

theorem add_penalized_eq (charges : Chargeable grid options) {x y z : α} (zNonneg : le 0 z)
    (xNonneg : le 0 x) (yNonneg : le 0 y) (same : eq x y) :
    eq (z + (x + options.slopePenalty)) (z + (y + options.slopePenalty)) :=
  add_eq_add_left zNonneg (add_nonneg xNonneg charges.penalty_nonneg)
    (add_nonneg yNonneg charges.penalty_nonneg)
    (add_eq_add_right charges.penalty_nonneg xNonneg yNonneg same)

/-- Some path in the band to the given pair has a cost equal to an amount. -/
def Attained (grid : Fin n → Fin m → α) (options : Options α) {i j : Nat} (iLt : i < n)
    (jLt : j < m) (amount : α) : Prop :=
  ∃ path : Path i j, path.Within options.window ∧
    eq amount (path.cost grid options.slopePenalty iLt jLt)

/-- A finite value of the recurrence comes from one of the three neighbours of its cell. -/
theorem value_attained (charges : Chargeable grid options) (usable : -1 ≤ options.window)
    (i j : Nat) (iLt : i < n) (jLt : j < m) :
    value options.rule grid (i + 1) (j + 1) iLt jLt = inf ∨
      Attained grid options iLt jLt (value options.rule grid (i + 1) (j + 1) iLt jLt) := by
  have gridNonneg := charges.grid_nonneg ⟨i, iLt⟩ ⟨j, jLt⟩
  have endless : grid ⟨i, iLt⟩ ⟨j, jLt⟩ + inf = inf := add_inf gridNonneg
  have endlessPenalty : inf + options.slopePenalty = inf := inf_add charges.penalty_nonneg
  rcases value_cases grid options usable iLt jLt with outside | ⟨inBand, diagonal | above | left⟩
  · exact Or.inl outside
  · rw [diagonal]
    match i, j with
    | 0, 0 =>
        rw [value_corner]
        exact Or.inr ⟨.start, Path.within_start.mpr inBand, add_zero gridNonneg⟩
    | 0, j + 1 => exact Or.inl (by rw [value_top, endless])
    | i + 1, 0 => exact Or.inl (by rw [value_left, endless])
    | i + 1, j + 1 =>
        rcases charges.value_attained usable i j (Nat.lt_of_succ_lt iLt) (Nat.lt_of_succ_lt jLt)
          with infinite | ⟨path, within, same⟩
        · exact Or.inl (by rw [infinite, endless])
        · refine Or.inr ⟨path.diagonal, Path.within_diagonal.mpr ⟨within, inBand⟩, ?_⟩
          exact add_eq_add_left gridNonneg (charges.value_nonneg _ _ _ _)
            (charges.cost_nonneg path _ _) same
  · rw [above]
    match i with
    | 0 => exact Or.inl (by rw [value_top, endlessPenalty, endless])
    | i + 1 =>
        rcases charges.value_attained usable i j (Nat.lt_of_succ_lt iLt) jLt
          with infinite | ⟨path, within, same⟩
        · exact Or.inl (by rw [infinite, endlessPenalty, endless])
        · refine Or.inr ⟨path.down, Path.within_down.mpr ⟨within, inBand⟩, ?_⟩
          exact charges.add_penalized_eq gridNonneg (charges.value_nonneg _ _ _ _)
            (charges.cost_nonneg path _ _) same
  · rw [left]
    match j with
    | 0 => exact Or.inl (by rw [value_left, endlessPenalty, endless])
    | j + 1 =>
        rcases charges.value_attained usable i j iLt (Nat.lt_of_succ_lt jLt)
          with infinite | ⟨path, within, same⟩
        · exact Or.inl (by rw [infinite, endlessPenalty, endless])
        · refine Or.inr ⟨path.across, Path.within_across.mpr ⟨within, inBand⟩, ?_⟩
          exact charges.add_penalized_eq gridNonneg (charges.value_nonneg _ _ _ _)
            (charges.cost_nonneg path _ _) same
termination_by i + j

end Chargeable

/-- The distance of an alignment is the least cost of a path through the grid inside the band, and
infinite when there is no such path. -/
theorem align_distance_isLeast {α : Type} [Scalar α] [AdditiveScalar α] {n m : Nat}
    (grid : Fin (n + 1) → Fin (m + 1) → α) (gridNonneg : ∀ i j, Scalar.le 0 (grid i j))
    (options : Options α) (usable : -1 ≤ options.window)
    (penaltyNonneg : Scalar.le 0 options.slopePenalty) (storage : Storage) :
    let distance := (align grid ⟨options.rule, storage, options.wantsPath, options.norm⟩).distance
    let pathCost (path : Path n m) :=
      path.cost grid options.slopePenalty (Nat.lt_succ_self n) (Nat.lt_succ_self m)
    (∀ path : Path n m, path.Within options.window → Scalar.le distance (pathCost path)) ∧
      ((∃ path : Path n m, path.Within options.window ∧ Scalar.eq distance (pathCost path)) ∨
        (∀ path : Path n m, ¬path.Within options.window) ∧ distance = Scalar.inf) := by
  intro distance pathCost
  have charges : Chargeable grid options := ⟨gridNonneg, penaltyNonneg⟩
  have last : distance = value options.rule grid (n + 1) (m + 1) (Nat.le_refl _) (Nat.le_refl _) :=
    align_distance grid _
  have lowest (path : Path n m) (within : path.Within options.window) :
      Scalar.le distance (pathCost path) := by
    rw [last]
    exact charges.value_le_cost usable path _ _ within
  refine ⟨lowest, ?_⟩
  rcases charges.value_attained usable n m (Nat.lt_succ_self n) (Nat.lt_succ_self m)
    with infinite | attained
  · by_cases reachable : ∃ path : Path n m, path.Within options.window
    · obtain ⟨path, within⟩ := reachable
      have atMost := Scalar.le_inf (charges.cost_nonneg path (Nat.lt_succ_self n)
        (Nat.lt_succ_self m))
      rw [← infinite, ← last] at atMost
      exact Or.inl ⟨path, within, OrderedScalar.eq_iff.mpr ⟨lowest path within, atMost⟩⟩
    · exact Or.inr ⟨fun path within => reachable ⟨path, within⟩, last.trans infinite⟩
  · rw [last]
    exact Or.inl attained

/-- Two samples against three inside a band of one, in binary64: every path costs at least 2.5. -/
theorem align_distance_isLeast_binary64 :
    let grid : Fin 2 → Fin 3 → Float := fun i j =>
      Scalar.abs (#v[0, 1].get i - #v[0, 1, 3].get j)
    let options : Options Float := ⟨1, 0.5, false, 1, 2⟩
    let distance := (align grid ⟨options.rule, .twoRows, options.wantsPath, options.norm⟩).distance
    Scalar.eq distance 2.5 = true ∧
      ∀ path : Path 1 2, path.Within 1 →
        Scalar.le distance (path.cost grid 0.5 (Nat.lt_succ_self 1) (Nat.lt_succ_self 2)) := by
  intro grid options distance
  refine ⟨by decide +kernel, ?_⟩
  have gridNonneg : ∀ i j, Scalar.le 0 (grid i j) := by decide +kernel
  exact (align_distance_isLeast grid gridNonneg options (by decide) (by decide +kernel) .twoRows).1

end EchoState.Warping
