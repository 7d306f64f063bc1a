import EchoState.Proofs.Scalar.Extent
import EchoState.Proofs.Warping.Separation

/-!
# Which pairs an alignment can reach

A cell of the table is finite only if a path inside the band leads to it along which every pair has
a finite cost, and as long as no sum of finite amounts overflows it is finite exactly then. A path
inside the band leads to every pair in the band. So where nothing overflows the distance is infinite
exactly when the band does not reach the last pair.
-/

namespace EchoState.Warping

/-! ## Paths inside the band -/

instance (window : Int) (i j : Nat) : Decidable (InBand window i j) :=
  inferInstanceAs (Decidable (_ ∨ _))

theorem InBand.nearer {window : Int} {i j : Nat} (inBand : InBand window i j) (i' j' : Nat)
    (nearer : (i' - j') + (j' - i') ≤ (i - j) + (j - i)) : InBand window i' j' := by
  unfold InBand at inBand ⊢
  omega

namespace Path

variable {i j : Nat}

theorem last_mem_cells (path : Path i j) : (i, j) ∈ path.cells := by
  cases path with
  | start => exact List.mem_singleton_self _
  | diagonal before | down before | across before =>
      exact List.mem_append_right _ (List.mem_singleton_self _)

theorem exists_within {window : Int} (inBand : InBand window i j) :
    ∃ path : Path i j, path.Within window := by
  induction i generalizing j with
  | zero =>
      induction j with
      | zero => exact ⟨.start, within_start.mpr inBand⟩
      | succ j ih =>
          obtain ⟨path, within⟩ := ih (inBand.nearer 0 j (by omega))
          exact ⟨path.across, within_across.mpr ⟨within, inBand⟩⟩
  | succ i ih =>
      cases j with
      | zero =>
          obtain ⟨path, within⟩ := ih (inBand.nearer i 0 (by omega))
          exact ⟨path.down, within_down.mpr ⟨within, inBand⟩⟩
      | succ j =>
          obtain ⟨path, within⟩ := ih (inBand.nearer i j (by omega))
          exact ⟨path.diagonal, within_diagonal.mpr ⟨within, inBand⟩⟩

theorem exists_within_iff {window : Int} :
    (∃ path : Path i j, path.Within window) ↔ InBand window i j :=
  ⟨fun ⟨path, within⟩ => within _ path.last_mem_cells, exists_within⟩

/-- Every pair that the path visits has a finite cost. -/
def Affordable {α : Type} [Scalar α] {n m : Nat} (grid : Fin n → Fin m → α) (path : Path i j) :
    Prop :=
  ∀ cell ∈ path.cells, ∀ (iLt : cell.1 < n) (jLt : cell.2 < m),
    Scalar.finite (grid ⟨cell.1, iLt⟩ ⟨cell.2, jLt⟩)

end Path

/-! ## Finite cells -/

/-- Costs that are numbers are from zero up, and so is the penalty. -/
structure Priced {α : Type} [Scalar α] {n m : Nat} (grid : Fin n → Fin m → α)
    (options : Options α) : Prop where
  grid_never : ∀ i j, NeverNegative (grid i j)
  penalty_nonneg : Scalar.le 0 options.slopePenalty

section Cells

variable {α : Type} [Scalar α] {n m : Nat} {grid : Fin n → Fin m → α} {options : Options α}

open Scalar OrderedScalar

theorem Chargeable.priced (charges : Chargeable grid options) : Priced grid options :=
  ⟨fun i j => .of_le (charges.grid_nonneg i j), charges.penalty_nonneg⟩

variable [ExtendedScalar α]

namespace Priced

variable (priced : Priced grid options)

include priced

theorem penalized_never {x : α} (never : NeverNegative x) :
    NeverNegative (x + options.slopePenalty) :=
  never.add (.of_le priced.penalty_nonneg)

theorem value_never (i j : Nat) (iLe : i ≤ n) (jLe : j ≤ m) :
    NeverNegative (value options.rule grid i j iLe jLe) := by
  fun_induction value options.rule grid i j iLe jLe with
  | case1 => exact .of_le zero_le_zero
  | case2 => exact .of_le AdditiveScalar.zero_le_inf
  | case3 => exact .of_le AdditiveScalar.zero_le_inf
  | case4 i j iLe jLe _ _ diagonal above left =>
      unfold Rule.cell
      split
      · exact .of_le AdditiveScalar.zero_le_inf
      · exact (priced.grid_never _ _).add
          (diagonal.least (priced.penalized_never above) (priced.penalized_never left))

/-- A finite cell has a finite cost and was computed from a finite cell. -/
theorem finite_neighbour (usable : -1 ≤ options.window) {i j : Nat} {iLt : i < n} {jLt : j < m}
    (isFinite : finite (value options.rule grid (i + 1) (j + 1) iLt jLt)) :
    InBand options.window i j ∧ finite (grid ⟨i, iLt⟩ ⟨j, jLt⟩) ∧
      (finite (value options.rule grid i j (Nat.le_of_lt iLt) (Nat.le_of_lt jLt)) ∨
        finite (value options.rule grid i (j + 1) (Nat.le_of_lt iLt) jLt) ∨
          finite (value options.rule grid (i + 1) j iLt (Nat.le_of_lt jLt))) := by
  have costNever := priced.grid_never ⟨i, iLt⟩ ⟨j, jLt⟩
  have never := priced.value_never
  have penaltyNever : NeverNegative options.slopePenalty := .of_le priced.penalty_nonneg
  rcases value_cases grid options usable iLt jLt with outside | ⟨inBand, same | same | same⟩
  · rw [outside] at isFinite
    exact absurd isFinite not_finite_inf
  · rw [same] at isFinite
    obtain ⟨cost, diagonal⟩ := finite_of_add costNever (never _ _ _ _) isFinite
    exact ⟨inBand, cost, Or.inl diagonal⟩
  · rw [same] at isFinite
    obtain ⟨cost, sum⟩ := finite_of_add costNever (priced.penalized_never (never _ _ _ _)) isFinite
    exact ⟨inBand, cost, Or.inr (Or.inl (finite_of_add (never _ _ _ _) penaltyNever sum).1)⟩
  · rw [same] at isFinite
    obtain ⟨cost, sum⟩ := finite_of_add costNever (priced.penalized_never (never _ _ _ _)) isFinite
    exact ⟨inBand, cost, Or.inr (Or.inr (finite_of_add (never _ _ _ _) penaltyNever sum).1)⟩

/-- A path inside the band leads to each finite cell, and every pair that it visits has a finite
cost. -/
theorem exists_affordable (usable : -1 ≤ options.window) (i j : Nat) (iLt : i < n) (jLt : j < m)
    (isFinite : finite (value options.rule grid (i + 1) (j + 1) iLt jLt)) :
    ∃ path : Path i j, path.Within options.window ∧ path.Affordable grid := by
  have onTop {j : Nat} (jLe : j + 1 ≤ m) :
      ¬finite (value options.rule grid 0 (j + 1) (Nat.zero_le n) jLe) := by
    rw [value_top]
    exact not_finite_inf
  have onLeft {i : Nat} (iLe : i + 1 ≤ n) :
      ¬finite (value options.rule grid (i + 1) 0 iLe (Nat.zero_le m)) := by
    rw [value_left]
    exact not_finite_inf
  obtain ⟨inBand, cost, diagonal | above | left⟩ := priced.finite_neighbour usable isFinite
  · match i, j with
    | 0, 0 =>
        exact ⟨.start, Path.within_start.mpr inBand,
          List.forall_mem_singleton.mpr fun _ _ => cost⟩
    | 0, j + 1 => exact absurd diagonal (onTop _)
    | i + 1, 0 => exact absurd diagonal (onLeft _)
    | i + 1, j + 1 =>
        obtain ⟨path, within, affordable⟩ := exists_affordable usable i j _ _ diagonal
        exact ⟨path.diagonal, Path.within_diagonal.mpr ⟨within, inBand⟩,
          Path.forall_mem_cells_diagonal.mpr ⟨affordable, fun _ _ => cost⟩⟩
  · match i with
    | 0 => exact absurd above (onTop _)
    | i + 1 =>
        obtain ⟨path, within, affordable⟩ := exists_affordable usable i j _ _ above
        exact ⟨path.down, Path.within_down.mpr ⟨within, inBand⟩,
          Path.forall_mem_cells_down.mpr ⟨affordable, fun _ _ => cost⟩⟩
  · match j with
    | 0 => exact absurd left (onLeft _)
    | j + 1 =>
        obtain ⟨path, within, affordable⟩ := exists_affordable usable i j _ _ left
        exact ⟨path.across, Path.within_across.mpr ⟨within, inBand⟩,
          Path.forall_mem_cells_across.mpr ⟨affordable, fun _ _ => cost⟩⟩
termination_by i + j

end Priced

/-! ## Where nothing overflows -/

/-- What the cell of a pair adds to its own cost. -/
def spent (grid : Fin n → Fin m → α) (options : Options α) (i : Fin n) (j : Fin m) : α :=
  least (value options.rule grid i j i.isLt.le j.isLt.le)
    (value options.rule grid i (j + 1) i.isLt.le j.isLt + options.slopePenalty)
    (value options.rule grid (i + 1) j i.isLt j.isLt.le + options.slopePenalty)

/-- No sum of finite amounts that is taken for a pair in the band overflows. -/
structure Contained (grid : Fin n → Fin m → α) (options : Options α) : Prop where
  above : ∀ (i : Fin n) (j : Fin m), InBand options.window i j →
    finite (value options.rule grid i (j + 1) i.isLt.le j.isLt) →
      finite (value options.rule grid i (j + 1) i.isLt.le j.isLt + options.slopePenalty)
  left : ∀ (i : Fin n) (j : Fin m), InBand options.window i j →
    finite (value options.rule grid (i + 1) j i.isLt j.isLt.le) →
      finite (value options.rule grid (i + 1) j i.isLt j.isLt.le + options.slopePenalty)
  sum : ∀ (i : Fin n) (j : Fin m), InBand options.window i j →
    finite (grid i j) → finite (spent grid options i j) →
      finite (grid i j + spent grid options i j)

instance (grid : Fin n → Fin m → α) (options : Options α) : Decidable (Contained grid options) :=
  decidable_of_iff (_ ∧ _ ∧ _)
    ⟨fun ⟨above, left, sum⟩ => ⟨above, left, sum⟩, fun ⟨above, left, sum⟩ => ⟨above, left, sum⟩⟩

namespace Chargeable

variable (charges : Chargeable grid options) (usable : -1 ≤ options.window)

include charges usable

/-- Where nothing overflows, a cell in the band whose pair has a finite cost is finite as soon as
one of its neighbours is. -/
theorem finite_of_neighbour (contained : Contained grid options) {i j : Nat} {iLt : i < n}
    {jLt : j < m} (inBand : InBand options.window i j) (cost : finite (grid ⟨i, iLt⟩ ⟨j, jLt⟩))
    (neighbour : finite (value options.rule grid i j (Nat.le_of_lt iLt) (Nat.le_of_lt jLt)) ∨
      finite (value options.rule grid i (j + 1) (Nat.le_of_lt iLt) jLt) ∨
        finite (value options.rule grid (i + 1) j iLt (Nat.le_of_lt jLt))) :
    finite (value options.rule grid (i + 1) (j + 1) iLt jLt) := by
  have nonneg := charges.value_nonneg
  have penalized {x : α} (xNonneg : le 0 x) : le 0 (x + options.slopePenalty) :=
    add_nonneg xNonneg charges.penalty_nonneg
  have diagonalNonneg := nonneg i j (Nat.le_of_lt iLt) (Nat.le_of_lt jLt)
  have aboveNonneg := penalized (nonneg i (j + 1) (Nat.le_of_lt iLt) jLt)
  have leftNonneg := penalized (nonneg (i + 1) j iLt (Nat.le_of_lt jLt))
  obtain ⟨leDiagonal, leAbove, leLeft⟩ := least_le (number_of_nonneg diagonalNonneg)
    (number_of_nonneg aboveNonneg) (number_of_nonneg leftNonneg)
  have spentNonneg : le 0 (spent grid options ⟨i, iLt⟩ ⟨j, jLt⟩) :=
    le_least diagonalNonneg aboveNonneg leftNonneg
  rw [value_inner, cell_of_inBand grid options usable ⟨i, iLt⟩ ⟨j, jLt⟩ inBand]
  apply contained.sum ⟨i, iLt⟩ ⟨j, jLt⟩ inBand cost
  rcases neighbour with diagonal | above | left
  · exact finite_of_nonneg_of_le spentNonneg leDiagonal diagonal
  · exact finite_of_nonneg_of_le spentNonneg leAbove
      (contained.above ⟨i, iLt⟩ ⟨j, jLt⟩ inBand above)
  · exact finite_of_nonneg_of_le spentNonneg leLeft
      (contained.left ⟨i, iLt⟩ ⟨j, jLt⟩ inBand left)

/-- Where nothing overflows, a cell is finite when some path inside the band leads to it along which
every pair has a finite cost. -/
theorem finite_of_affordable [MeasuredScalar α] (contained : Contained grid options) {i j : Nat}
    {path : Path i j} (iLt : i < n) (jLt : j < m) (within : path.Within options.window)
    (affordable : path.Affordable grid) :
    finite (value options.rule grid (i + 1) (j + 1) iLt jLt) := by
  induction path with
  | start =>
      apply charges.finite_of_neighbour usable contained (Path.within_start.mp within)
        (affordable _ (Path.last_mem_cells _) iLt jLt)
      rw [value_corner]
      exact Or.inl MeasuredScalar.finite_zero
  | diagonal before ih =>
      obtain ⟨earlier, inBand⟩ := Path.within_diagonal.mp within
      obtain ⟨paid, cost⟩ := Path.forall_mem_cells_diagonal.mp affordable
      exact charges.finite_of_neighbour usable contained inBand (cost iLt jLt)
        (Or.inl (ih (Nat.lt_of_succ_lt iLt) (Nat.lt_of_succ_lt jLt) earlier paid))
  | down before ih =>
      obtain ⟨earlier, inBand⟩ := Path.within_down.mp within
      obtain ⟨paid, cost⟩ := Path.forall_mem_cells_down.mp affordable
      exact charges.finite_of_neighbour usable contained inBand (cost iLt jLt)
        (Or.inr (Or.inl (ih (Nat.lt_of_succ_lt iLt) jLt earlier paid)))
  | across before ih =>
      obtain ⟨earlier, inBand⟩ := Path.within_across.mp within
      obtain ⟨paid, cost⟩ := Path.forall_mem_cells_across.mp affordable
      exact charges.finite_of_neighbour usable contained inBand (cost iLt jLt)
        (Or.inr (Or.inr (ih iLt (Nat.lt_of_succ_lt jLt) earlier paid)))

/-- Where nothing overflows, a cell is finite exactly when such a path leads to it. -/
theorem finite_iff [MeasuredScalar α] (contained : Contained grid options) {i j : Nat}
    (iLt : i < n) (jLt : j < m) :
    finite (value options.rule grid (i + 1) (j + 1) iLt jLt) ↔
      ∃ path : Path i j, path.Within options.window ∧ path.Affordable grid := by
  constructor
  · exact charges.priced.exists_affordable usable i j iLt jLt
  · rintro ⟨path, within, affordable⟩
    exact charges.finite_of_affordable usable contained iLt jLt within affordable

end Chargeable

end Cells

/-! ## Bands that are too narrow -/

/-- The band does not reach the last pair of two sides of the given lengths. -/
def Options.TooNarrow {α : Type} (options : Options α) (n m : Nat) : Prop :=
  0 ≤ options.window ∧ options.window < ((n : Int) - (m : Int)).natAbs

instance {α : Type} (options : Options α) (n m : Nat) : Decidable (options.TooNarrow n m) :=
  inferInstanceAs (Decidable (_ ∧ _))

theorem tooNarrow_iff {α : Type} {options : Options α} (usable : -1 ≤ options.window) (i j : Nat) :
    options.TooNarrow (i + 1) (j + 1) ↔ ¬InBand options.window i j := by
  unfold Options.TooNarrow InBand
  omega

section Narrow

variable {α : Type} [Scalar α] {options : Options α}

open Scalar OrderedScalar

/-- A cell outside the band is infinite, whatever the costs are. -/
theorem value_of_not_inBand {n m : Nat} (grid : Fin n → Fin m → α)
    (usable : -1 ≤ options.window) {i j : Nat} (iLt : i < n) (jLt : j < m)
    (outside : ¬InBand options.window i j) :
    value options.rule grid (i + 1) (j + 1) iLt jLt = inf := by
  rcases value_cases grid options usable iLt jLt with infinite | ⟨inBand, _⟩
  · exact infinite
  · exact absurd inBand outside

/-- The last cell is infinite if the band is too narrow, whatever the costs are. -/
theorem value_of_tooNarrow {n m : Nat} (grid : Fin n → Fin m → α)
    (usable : -1 ≤ options.window) (nSome : n ≠ 0) (mSome : m ≠ 0)
    (narrow : options.TooNarrow n m) :
    value options.rule grid n m (Nat.le_refl n) (Nat.le_refl m) = inf := by
  obtain ⟨i, rfl⟩ := Nat.exists_eq_succ_of_ne_zero nSome
  obtain ⟨j, rfl⟩ := Nat.exists_eq_succ_of_ne_zero mSome
  exact value_of_not_inBand grid usable (Nat.lt_succ_self i) (Nat.lt_succ_self j)
    ((tooNarrow_iff usable i j).mp narrow)

/-- Where every pair in the band has a finite cost and nothing overflows, the last cell is infinite
exactly when the band is too narrow. -/
theorem Chargeable.value_eq_inf_iff [MeasuredScalar α] [ExtendedScalar α] {n m : Nat}
    {grid : Fin n → Fin m → α} (charges : Chargeable grid options) (usable : -1 ≤ options.window)
    (contained : Contained grid options)
    (costs : ∀ (i : Fin n) (j : Fin m), InBand options.window i j → finite (grid i j))
    (nSome : n ≠ 0) (mSome : m ≠ 0) :
    value options.rule grid n m (Nat.le_refl n) (Nat.le_refl m) = inf ↔
      options.TooNarrow n m := by
  obtain ⟨i, rfl⟩ := Nat.exists_eq_succ_of_ne_zero nSome
  obtain ⟨j, rfl⟩ := Nat.exists_eq_succ_of_ne_zero mSome
  have affordable (path : Path i j) (within : path.Within options.window) :
      path.Affordable grid := fun cell visited iLt jLt =>
    costs ⟨cell.1, iLt⟩ ⟨cell.2, jLt⟩ (within cell visited)
  calc
    value options.rule grid (i + 1) (j + 1) (Nat.le_refl _) (Nat.le_refl _) = inf ↔
        ¬finite (value options.rule grid (i + 1) (j + 1) (Nat.le_refl _) (Nat.le_refl _)) :=
      eq_inf_iff (charges.value_nonneg _ _ _ _)
    _ ↔ ¬∃ path : Path i j, path.Within options.window ∧ path.Affordable grid :=
      not_congr (charges.finite_iff usable contained _ _)
    _ ↔ ¬∃ path : Path i j, path.Within options.window :=
      not_congr (exists_congr fun path => and_iff_left_of_imp (affordable path))
    _ ↔ ¬InBand options.window i j := not_congr Path.exists_within_iff
    _ ↔ options.TooNarrow (i + 1) (j + 1) := (tooNarrow_iff usable i j).symm

/-- A path is read from the whole table, and only if the distance is not infinite. -/
theorem path_of_align {n m : Nat} {grid : Fin n → Fin m → α} {plan : Plan α}
    {path : List (Nat × Nat)} (found : (align grid plan).path = some path) :
    eq (value plan.rule grid n m (Nat.le_refl n) (Nat.le_refl m)) inf = false ∧
      Table.path? plan.rule.penalty (Table.fill plan.rule grid) = some path := by
  unfold align at found
  split at found
  · cases found
  · cases found
  · dsimp only at found
    split at found
    · rename_i wanted
      rw [Table.distance_fill, Bool.and_eq_true, Bool.not_eq_true'] at wanted
      exact ⟨wanted.2, found⟩
    · cases found

/-- An infinite distance has no path, under every storage. -/
theorem align_of_value_eq_inf [AdditiveScalar α] {n m : Nat} {grid : Fin n → Fin m → α}
    {plan : Plan α}
    (infinite : value plan.rule grid n m (Nat.le_refl n) (Nat.le_refl m) = inf) :
    align grid plan = ⟨inf, none⟩ := by
  have pathless : (align grid plan).path = none := by
    rw [Option.eq_none_iff_forall_ne_some]
    intro path found
    have notInfinite := (path_of_align found).1
    rw [infinite, inf_eq_inf] at notInfinite
    cases notInfinite
  rw [← pathless, ← infinite, ← align_distance grid plan]

end Narrow

section Series

variable {α : Type} [Scalar α] [MetricScalar α] [ExtendedScalar α] {a b : Array α}

open Scalar

/-- Where the band is too narrow, the distance of two series is infinite and has no path, whatever
the samples are and under every storage. For finite samples it is infinite then only, as long as no
difference and no sum overflows that is taken for a pair in the band. -/
theorem series_infinite_iff_tooNarrow (aSome : a ≠ #[]) (bSome : b ≠ #[])
    {options : Option (Options α)} (usable : (options.getD .standard).Usable) :
    ((options.getD .standard).TooNarrow a.size b.size →
      series a b options = .ok ⟨inf, none⟩) ∧
      ((∀ x ∈ a, finite x) → (∀ x ∈ b, finite x) →
        (∀ (i : Fin a.size) (j : Fin b.size), InBand (options.getD .standard).window i j →
          finite (a.toVector.get i - b.toVector.get j)) →
        Contained (gapGrid a b) (options.getD .standard) →
          ∃ alignment, series a b options = .ok alignment ∧
            (alignment.distance = inf ↔
              (options.getD .standard).TooNarrow a.size b.size)) := by
  obtain ⟨storage, _, planned⟩ := usable.exists_plan
  have inBand := usable.window_usable
  have sized {samples : Array α} (someSample : samples ≠ #[]) : samples.size ≠ 0 :=
    mt Array.eq_empty_of_size_eq_zero someSample
  constructor
  · intro narrow
    let plan : Plan α := ⟨(options.getD .standard).rule, storage,
      (options.getD .standard).wantsPath, (options.getD .standard).norm⟩
    have infinite : align (gapGrid a b) plan = ⟨inf, none⟩ := align_of_value_eq_inf
      (value_of_tooNarrow (gapGrid a b) inBand (sized aSome) (sized bSome) narrow)
    refine series_eq_ok_iff.mpr ⟨aSome, bSome, _, planned, ?_, infinite.symm⟩
    rw [infinite]
    exact Plan.lost_of_infinite _ inf_eq_inf
  · intro aFinite bFinite differences contained
    have gapsNonneg := gapGrid_nonneg aFinite bFinite
    refine ⟨_, series_of_nonneg aSome bSome gapsNonneg usable planned, ?_⟩
    have charges := usable.chargeable gapsNonneg
    have costs (i : Fin a.size) (j : Fin b.size)
        (reached : InBand (options.getD .standard).window i j) : finite (gapGrid a b i j) :=
      (ExtendedScalar.finite_abs _).trans (differences i j reached)
    rw [align_distance]
    exact charges.value_eq_inf_iff inBand contained costs (sized aSome) (sized bSome)

end Series

/-- A band of one reaches the last pair of two samples and three, and a band of none does not, be it
that one of the samples is no number. -/
theorem series_infinite_iff_tooNarrow_binary64 :
    let a : Array Float := #[0, 1]
    let b : Array Float := #[0, 1, 3]
    let reaching : Options Float := ⟨1, 0.5, true, 0, 2⟩
    let narrow : Options Float := ⟨0, 0.5, true, 0, 2⟩
    (∃ alignment, series a b (some reaching) = .ok alignment ∧ alignment.distance ≠ Scalar.inf) ∧
      series #[Scalar.nan, 1] b (some narrow) = .ok ⟨Scalar.inf, none⟩ := by
  intro a b reaching narrow
  have penalty : Scalar.finite (0.5 : Float) = true ∧ Scalar.le 0 (0.5 : Float) = true := by
    with_unfolding_all decide
  have usable {window : Int} (inRange : -1 ≤ window) :
      ((some ⟨window, 0.5, true, 0, 2⟩ : Option (Options Float)).getD .standard).Usable :=
    ⟨inRange, penalty.1, penalty.2, ⟨.table, rfl⟩, fun _ => rfl⟩
  have aFinite : ∀ x ∈ a, Scalar.finite x := by with_unfolding_all decide
  have bFinite : ∀ x ∈ b, Scalar.finite x := by with_unfolding_all decide
  have differences : ∀ (i : Fin 2) (j : Fin 3), InBand reaching.window i j →
      Scalar.finite (a.toVector.get i - b.toVector.get j) := by with_unfolding_all decide
  have contained : Contained (gapGrid a b) reaching := by decide +kernel
  have reachingUsable : ((some reaching).getD .standard).Usable := usable (by decide)
  have narrowUsable : ((some narrow).getD .standard).Usable := usable (by decide)
  constructor
  · obtain ⟨alignment, aligned, infinite_iff⟩ :=
      (series_infinite_iff_tooNarrow (a := a) (b := b) (by decide) (by decide)
        reachingUsable).2 aFinite bFinite differences contained
    exact ⟨alignment, aligned, mt infinite_iff.mp (by decide)⟩
  · exact (series_infinite_iff_tooNarrow (by decide) (by decide) narrowUsable).1 (by decide)

end EchoState.Warping
