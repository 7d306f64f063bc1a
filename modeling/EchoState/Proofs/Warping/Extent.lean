import EchoState.Proofs.Distance.Extent
import EchoState.Proofs.Warping.Reachability
import EchoState.Proofs.Warping.Representation

/-!
# What a finite alignment says of its samples

A path visits every sample of both sides, and a finite distance comes with a path along which every
pair has a finite cost. So nothing that is not finite is warped away: under the gaps of two series,
and under every norm of finite order, a finite distance is one of finite samples. The norm of order
infinity passes over what is no number, and then a finite distance says less.
-/

namespace EchoState.Warping

/-! ## Paths visit every sample -/

namespace Path

variable {i j : Nat}

theorem exists_mem_row (path : Path i j) {k : Nat} (kLe : k ≤ i) :
    ∃ l ≤ j, (k, l) ∈ path.cells := by
  induction path with
  | start =>
      obtain rfl := Nat.le_zero.mp kLe
      exact ⟨0, Nat.le_refl 0, List.mem_singleton_self _⟩
  | @diagonal i j before ih =>
      rcases Nat.le_succ_iff.mp kLe with earlier | rfl
      · obtain ⟨l, lLe, visited⟩ := ih earlier
        exact ⟨l, Nat.le_succ_of_le lLe, List.mem_append_left _ visited⟩
      · exact ⟨j + 1, Nat.le_refl _, last_mem_cells _⟩
  | @down i j before ih =>
      rcases Nat.le_succ_iff.mp kLe with earlier | rfl
      · obtain ⟨l, lLe, visited⟩ := ih earlier
        exact ⟨l, lLe, List.mem_append_left _ visited⟩
      · exact ⟨j, Nat.le_refl _, last_mem_cells _⟩
  | across before ih =>
      obtain ⟨l, lLe, visited⟩ := ih kLe
      exact ⟨l, Nat.le_succ_of_le lLe, List.mem_append_left _ visited⟩

/-- The path with its two sides exchanged. -/
def flip : {i j : Nat} → Path i j → Path j i
  | _, _, .start => .start
  | _, _, .diagonal before => .diagonal before.flip
  | _, _, .down before => .across before.flip
  | _, _, .across before => .down before.flip

theorem cells_flip (path : Path i j) : path.flip.cells = path.cells.map Prod.swap := by
  induction path with
  | start => rfl
  | diagonal before ih | down before ih | across before ih =>
      rw [flip, cells, cells, ih, List.map_append]
      rfl

theorem exists_mem_column (path : Path i j) {l : Nat} (lLe : l ≤ j) :
    ∃ k ≤ i, (k, l) ∈ path.cells := by
  obtain ⟨k, kLe, visited⟩ := path.flip.exists_mem_row lLe
  rw [cells_flip, List.mem_map] at visited
  obtain ⟨cell, listed, swapped⟩ := visited
  obtain rfl : cell = (k, l) := Prod.swap_injective swapped
  exact ⟨k, kLe, listed⟩

end Path

section Grid

variable {α : Type} [Scalar α] [ExtendedScalar α] {n m : Nat} {grid : Fin n → Fin m → α}
  {options : Options α}

open Scalar

/-- If the last cell is finite, every row and every column has a finite cost in the band. -/
theorem Priced.exists_finite_cost (priced : Priced grid options) (usable : -1 ≤ options.window)
    (nSome : n ≠ 0) (mSome : m ≠ 0)
    (isFinite : finite (value options.rule grid n m (Nat.le_refl n) (Nat.le_refl m))) :
    (∀ i : Fin n, ∃ j : Fin m, InBand options.window i j ∧ finite (grid i j)) ∧
      ∀ j : Fin m, ∃ i : Fin n, InBand options.window i j ∧ finite (grid i j) := by
  obtain ⟨n, rfl⟩ := Nat.exists_eq_succ_of_ne_zero nSome
  obtain ⟨m, rfl⟩ := Nat.exists_eq_succ_of_ne_zero mSome
  obtain ⟨path, within, affordable⟩ := priced.exists_affordable usable n m (Nat.lt_succ_self n)
    (Nat.lt_succ_self m) isFinite
  constructor
  · intro i
    obtain ⟨l, lLe, visited⟩ := path.exists_mem_row (Nat.le_of_lt_succ i.isLt)
    exact ⟨⟨l, Nat.lt_succ_of_le lLe⟩, within _ visited, affordable _ visited _ _⟩
  · intro j
    obtain ⟨k, kLe, visited⟩ := path.exists_mem_column (Nat.le_of_lt_succ j.isLt)
    exact ⟨⟨k, Nat.lt_succ_of_le kLe⟩, within _ visited, affordable _ visited _ _⟩

end Grid

/-! ## Series -/

section Series

variable {α : Type} [Scalar α] [MetricScalar α] {a b : Array α} {options : Options α}

open Scalar

theorem Options.Usable.priced_gapGrid (usable : options.Usable) : Priced (gapGrid a b) options where
  grid_never i j number := by
    unfold gapGrid at number ⊢
    rw [MeasuredScalar.isNaN_abs] at number
    exact MetricScalar.zero_le_abs number
  penalty_nonneg := usable.penalty_nonneg

/-- Over finite series no cell of the table is anything but a number. -/
theorem Options.Usable.isNaN_get_fill (usable : options.Usable) (aFinite : ∀ x ∈ a, finite x)
    (bFinite : ∀ x ∈ b, finite x) (i : Fin (a.size + 1)) (j : Fin (b.size + 1)) :
    isNaN ((Table.fill options.rule (gapGrid a b)).get i j) = false := by
  rw [Table.get_fill]
  exact number_of_nonneg
    ((usable.chargeable (gapGrid_nonneg aFinite bFinite)).value_nonneg _ _ _ _)

variable [ExtendedScalar α]

/-- The samples of two series with a finite last cell are finite. -/
theorem Options.Usable.finite_samples (usable : options.Usable) (aSome : a ≠ #[]) (bSome : b ≠ #[])
    (isFinite : finite (value options.rule (gapGrid a b) a.size b.size (Nat.le_refl _)
      (Nat.le_refl _))) :
    (∀ x ∈ a, finite x) ∧ ∀ x ∈ b, finite x := by
  have sides {i : Fin a.size} {j : Fin b.size} (gap : finite (gapGrid a b i j)) :
      finite a[i] ∧ finite b[j] := by
    unfold gapGrid at gap
    rw [ExtendedScalar.finite_abs] at gap
    exact ExtendedScalar.finite_of_sub gap
  obtain ⟨rows, columns⟩ := usable.priced_gapGrid.exists_finite_cost usable.window_usable
    (mt Array.eq_empty_of_size_eq_zero aSome) (mt Array.eq_empty_of_size_eq_zero bSome) isFinite
  constructor
  · intro x listed
    obtain ⟨i, iLt, rfl⟩ := Array.mem_iff_getElem.mp listed
    obtain ⟨j, -, gap⟩ := rows ⟨i, iLt⟩
    exact (sides gap).1
  · intro x listed
    obtain ⟨j, jLt, rfl⟩ := Array.mem_iff_getElem.mp listed
    obtain ⟨i, -, gap⟩ := columns ⟨j, jLt⟩
    exact (sides gap).2

/-- Whatever two series hold, they are aligned at a finite distance only if every sample is finite.
Then no cell of the table is anything but a number, and a path that is returned is read from this
table. -/
theorem finite_of_finite_series {options : Option (Options α)} {alignment : Alignment α}
    (aligned : series a b options = .ok alignment) (isFinite : finite alignment.distance) :
    (∀ x ∈ a, finite x) ∧ (∀ x ∈ b, finite x) ∧
      ∀ path, alignment.path = some path →
        let table := Table.fill (options.getD .standard).rule (gapGrid a b)
        Table.path? (options.getD .standard).slopePenalty table = some path ∧
          ∀ i j, isNaN (table.get i j) = false := by
  obtain ⟨aSome, bSome, plan, resolved, -, rfl⟩ := series_eq_ok_iff.mp aligned
  obtain ⟨usable, storage, -, rfl⟩ := Options.plan_eq_ok_iff.mp resolved
  rw [align_distance] at isFinite
  obtain ⟨aFinite, bFinite⟩ := usable.finite_samples aSome bSome isFinite
  refine ⟨aFinite, bFinite, fun path found => ⟨(path_of_align found).2, ?_⟩⟩
  exact usable.isNaN_get_fill aFinite bFinite

end Series

/-- A sample that is no number keeps the distance from being finite, and two series of finite
samples have a finite distance and a path. -/
theorem finite_of_finite_series_binary64 :
    let a : Array Float := #[0, 1]
    let b : Array Float := #[0, 1, 3]
    let options : Options Float := ⟨1, 0.5, true, 0, 2⟩
    (∀ alignment, series #[0, Scalar.nan] b (some options) = .ok alignment →
      ¬Scalar.finite alignment.distance) ∧
      ∃ alignment, series a b (some options) = .ok alignment ∧ alignment.distance = 2.5 ∧
        alignment.path = some [(0, 0), (1, 1), (1, 2)] ∧
          ∀ i j, Scalar.isNaN ((Table.fill options.rule (gapGrid a b)).get i j) = false := by
  intro a b options
  have usable : options.Usable :=
    ⟨by decide, by with_unfolding_all decide, by with_unfolding_all decide, ⟨.table, rfl⟩,
      fun _ => rfl⟩
  constructor
  · intro alignment aligned isFinite
    exact absurd ((finite_of_finite_series aligned isFinite).1 Scalar.nan (by simp))
      (by with_unfolding_all decide)
  · let plan : Plan Float := ⟨options.rule, .table, options.wantsPath, options.norm⟩
    have planned : Options.resolve (some options) = .ok plan :=
      Options.plan_eq_ok_iff.mpr ⟨usable, .table, rfl, rfl⟩
    have run : (align (gapGrid a b) plan).distance = 2.5 ∧
        (align (gapGrid a b) plan).path = some [(0, 0), (1, 1), (1, 2)] := by
      decide +kernel
    have aligned : series a b (some options) = .ok (align (gapGrid a b) plan) :=
      series_eq_ok_iff.mpr ⟨by decide, by decide, _, planned, by decide +kernel, rfl⟩
    have isFinite : Scalar.finite (align (gapGrid a b) plan).distance = true := by
      rw [run.1]
      with_unfolding_all decide
    exact ⟨_, aligned, run.1, run.2, ((finite_of_finite_series aligned isFinite).2.2 _ run.2).2⟩

section Lost

variable {α : Type} [Scalar α] [MetricScalar α] {a b : Array α}

open Scalar

/-- The walk back through the table of two series is lost only if some gap is no number. -/
theorem exists_nan_gap_of_lost (aSome : a ≠ #[]) (bSome : b ≠ #[]) {options : Option (Options α)}
    {plan : Plan α} (planned : Options.resolve options = .ok plan)
    (lost : plan.lost (align (gapGrid a b) plan) = true) :
    ∃ i j, isNaN (gapGrid a b i j) = true := by
  by_contra numbers
  obtain ⟨usable, storage, -, rfl⟩ := Options.plan_eq_ok_iff.mp planned
  have gapsNonneg (i : Fin a.size) (j : Fin b.size) : le 0 (gapGrid a b i j) := by
    refine usable.priced_gapGrid.grid_never i j ?_
    rw [← Bool.not_eq_true]
    exact fun none => numbers ⟨i, j, none⟩
  have kept := (usable.chargeable gapsNonneg).not_lost usable.window_usable
    (mt Array.eq_empty_of_size_eq_zero aSome) (mt Array.eq_empty_of_size_eq_zero bSome) storage
  rw [kept] at lost
  cases lost

end Lost

/-- A walk back past the samples of a series that is no number. -/
example : series (#[1, 1] : Array Float) #[Scalar.nan] (some ⟨-1, 0, true, 0, 2⟩) =
    .error .outsideBuffer := by
  have usable : (⟨-1, 0, true, 0, 2⟩ : Options Float).Usable :=
    ⟨by decide, by with_unfolding_all decide, by with_unfolding_all decide, ⟨.table, rfl⟩,
      fun _ => rfl⟩
  rw [series_of_planned (by decide) (by decide)
    (Options.plan_eq_ok_iff.mpr ⟨usable, .table, rfl, rfl⟩)]
  exact if_pos (by decide +kernel)

/-! ## Trajectories -/

section Columns

variable {α : Type} [Scalar α] {channels n m : Nat} {left : Sheet α channels n}
  {right : Sheet α channels m} {norm : α}

open Distance

theorem forall_mem_gaps_columns {P : α → Prop} {i : Fin n} {j : Fin m} :
    (∀ gap ∈ gaps (List.ofFn fun k => left.get k i) (List.ofFn fun k => right.get k j), P gap) ↔
      ∀ k, P (Scalar.abs (right.get k j - left.get k i)) := by
  rw [gaps_ofFn]
  exact List.forall_mem_ofFn_iff

theorem length_columns (i : Fin n) (j : Fin m) :
    (List.ofFn fun k => left.get k i).length = (List.ofFn fun k => right.get k j).length := by
  rw [List.length_ofFn, List.length_ofFn]

variable [Distances α]

/-- Under a norm that shows the gaps, two columns at a finite distance have finite cells. -/
theorem finite_of_finite_columnGrid [ExtendedScalar α] (shows : Distances.ShowGaps norm)
    {i : Fin n} {j : Fin m} (cost : Scalar.finite (columnGrid norm left right i j))
    (k : Fin channels) :
    Scalar.finite (left.get k i) = true ∧ Scalar.finite (right.get k j) = true := by
  have gaps := forall_mem_gaps_columns.mp (shows.finite_gaps (length_columns i j) cost)
  have difference := gaps k
  rw [ExtendedScalar.finite_abs] at difference
  exact (ExtendedScalar.finite_of_sub difference).symm

/-- Under the norm of order infinity the distance of two columns is their largest gap. -/
theorem columnGrid_inf [SupremumDistances α] (i : Fin n) (j : Fin m) :
    columnGrid Scalar.inf left right i j =
      supremum (List.ofFn fun k => left.get k i) (List.ofFn fun k => right.get k j) :=
  SupremumDistances.between_inf (length_columns i j)

end Columns

section Trajectories

variable {channels n m : Nat} {left : Sheet Float channels n} {right : Sheet Float channels m}

open Distance

/-- No gap between two columns is infinite, though it may be no number. -/
def NoInfiniteGap (left : Sheet Float channels n) (right : Sheet Float channels m) (i : Fin n)
    (j : Fin m) : Prop :=
  ∀ k, Scalar.finite (Scalar.abs (right.get k j - left.get k i)) = true ∨
    Scalar.isNaN (Scalar.abs (right.get k j - left.get k i)) = true

/-- Whatever two trajectories hold, their distance under a norm of finite order is finite only if
every cell is. Under the norm of order infinity a finite distance says no more than that each sample
of either side has a partner from which no channel is infinitely far. -/
theorem finite_of_finite_trajectories {x y : Operand Float} (leftShown : x.Shows left)
    (rightShown : y.Shows right) {options : Option (Options Float)} {alignment : Alignment Float}
    (aligned : trajectories x y options = .ok alignment)
    (isFinite : Scalar.finite alignment.distance) :
    let order := (options.getD .standard).norm
    (Scalar.eq order Scalar.inf = false → PowersTrusted order →
      (∀ k i, Scalar.finite (left.get k i) = true) ∧
        ∀ k j, Scalar.finite (right.get k j) = true) ∧
      (Scalar.eq order Scalar.inf = true →
        (∀ i, ∃ j, NoInfiniteGap left right i j) ∧ ∀ j, ∃ i, NoInfiniteGap left right i j) := by
  intro order
  obtain ⟨⟨-, nSome, mSome⟩, -, plan, resolved, number, large, -, rfl⟩ :=
    (trajectories_of_shows_eq_ok_iff leftShown rightShown).mp aligned
  obtain ⟨usable, storage, -, rfl⟩ := Options.plan_eq_ok_iff.mp resolved
  rw [align_distance] at isFinite
  have costs (never : ∀ i j, NeverNegative (columnGrid order left right i j)) :=
    Priced.exists_finite_cost ⟨never, usable.penalty_nonneg⟩ usable.window_usable nSome mSome
      isFinite
  constructor
  · intro other trusted
    have shows := Distances.showGaps_of_trusted trusted number large other
    obtain ⟨rows, columns⟩ := costs fun i j => shows.neverNegative (length_columns i j)
    constructor
    · intro k i
      obtain ⟨j, -, cost⟩ := rows i
      exact (finite_of_finite_columnGrid shows cost k).1
    · intro k j
      obtain ⟨i, -, cost⟩ := columns j
      exact (finite_of_finite_columnGrid shows cost k).2
  · intro top
    have largest (i : Fin n) (j : Fin m) : columnGrid order left right i j =
        supremum (List.ofFn fun k => left.get k i) (List.ofFn fun k => right.get k j) := by
      rw [Scalar.eq_inf_of_inf_le (OrderedScalar.eq_iff.mp top).2]
      exact columnGrid_inf i j
    obtain ⟨rows, columns⟩ := costs fun i j => by
      rw [largest]
      exact .of_le (largest_nonneg Scalar.zero_le_zero _)
    have paired {i : Fin n} {j : Fin m} (cost : Scalar.finite (columnGrid order left right i j)) :
        NoInfiniteGap left right i j := by
      rw [largest] at cost
      exact forall_mem_gaps_columns.mp (finite_supremum_iff.mp cost)
    exact ⟨fun i => (rows i).imp fun _ found => paired found.2,
      fun j => (columns j).imp fun _ found => paired found.2⟩

end Trajectories

/-- Two finite trajectories under the Euclidean norm, one of them behind a reader, and a sample that
is no number beside a finite one under the norm of order infinity. -/
theorem finite_of_finite_trajectories_binary64 :
    let left : Sheet Float 2 2 := .whole ⟨#v[0, 1, 2, 3]⟩
    let right : Sheet Float 2 2 := .whole ⟨#v[0, 1, 2, Scalar.nan]⟩
    let options (norm : Float) : Options Float := ⟨-1, 0.5, false, 1, norm⟩
    (∃ alignment, trajectories (.view (.ofMatrix ⟨2, 2, left⟩)) (.stored ⟨2, 2, left⟩)
      (some (options 2)) = .ok alignment ∧ Scalar.finite alignment.distance = true ∧
        ∀ k i, Scalar.finite (left.get k i) = true) ∧
      ∃ alignment, trajectories (.stored ⟨2, 2, left⟩) (.stored ⟨2, 2, right⟩)
        (some (options Scalar.inf)) = .ok alignment ∧
          Scalar.finite alignment.distance = true ∧ ∀ i, ∃ j, NoInfiniteGap left right i j := by
  intro left right options
  have usable (norm : Float) : (options norm).Usable :=
    ⟨Int.le_refl (-1), (by with_unfolding_all decide : Scalar.finite (0.5 : Float) = true),
      (by with_unfolding_all decide : Scalar.le 0 (0.5 : Float) = true), ⟨.twoRows, rfl⟩, nofun⟩
  let plan (norm : Float) : Plan Float := ⟨(options norm).rule, .twoRows, false, norm⟩
  have planned (norm : Float) : (options norm).plan = .ok (plan norm) :=
    Options.plan_eq_ok_iff.mpr ⟨usable norm, .twoRows, rfl, rfl⟩
  have two : Scalar.isNaN (2 : Float) = false ∧ Scalar.lt (2 : Float) 1 = false ∧
      Scalar.eq (2 : Float) Scalar.inf = false ∧
        Scalar.eq (2 : Float) (Scalar.natural 2) = true := by
    with_unfolding_all decide
  have top : Scalar.isNaN (Scalar.inf : Float) = false ∧
      Scalar.lt (Scalar.inf : Float) 1 = false ∧
        Scalar.eq (Scalar.inf : Float) Scalar.inf = true := by
    with_unfolding_all decide
  have behind := Operand.shows_ofMatrix left
  have leftKept : Operand.Shows left (.stored ⟨2, 2, left⟩) := rfl
  have rightKept : Operand.Shows right (.stored ⟨2, 2, right⟩) := rfl
  constructor
  · have aligned : trajectories (.view (.ofMatrix ⟨2, 2, left⟩)) (.stored ⟨2, 2, left⟩)
        (some (options 2)) = .ok (align (columnGrid 2 left left) (plan 2)) :=
      (trajectories_of_shows_eq_ok_iff behind leftKept).mpr
        ⟨by decide, by decide, _, planned 2, two.1, two.2.1, Plan.lost_of_unwanted rfl _, rfl⟩
    have isFinite : Scalar.finite (align (columnGrid 2 left left) (plan 2)).distance = true := by
      decide +kernel
    obtain ⟨finiteOrder, -⟩ := finite_of_finite_trajectories behind leftKept aligned isFinite
    exact ⟨_, aligned, isFinite, (finiteOrder two.2.2.1 (Or.inl (Or.inl two.2.2.2))).1⟩
  · have aligned : trajectories (.stored ⟨2, 2, left⟩) (.stored ⟨2, 2, right⟩)
        (some (options Scalar.inf)) =
          .ok (align (columnGrid Scalar.inf left right) (plan Scalar.inf)) :=
      (trajectories_of_shows_eq_ok_iff leftKept rightKept).mpr
        ⟨by decide, by decide, _, planned Scalar.inf, top.1, top.2.1, Plan.lost_of_unwanted rfl _,
          rfl⟩
    have isFinite : Scalar.finite
        (align (columnGrid Scalar.inf left right) (plan Scalar.inf)).distance = true := by
      decide +kernel
    obtain ⟨-, infiniteOrder⟩ := finite_of_finite_trajectories leftKept rightKept aligned isFinite
    exact ⟨_, aligned, isFinite, (infiniteOrder top.2.2).1⟩

/-- A product of finite matrices that overflows to no number, at distance zero from one under the
norm of order infinity. -/
theorem distance_zero_from_nan :
    let factor : Sheet Float 1 2 := .whole ⟨#v[1e200, -1e200]⟩
    let factor' : Sheet Float 2 1 := .whole ⟨#v[1e200, 1e200]⟩
    ∃ m : Sheet Float 1 1,
      (Operand.stored ⟨1, 2, factor⟩).product (.stored ⟨2, 1, factor'⟩) = .ok ⟨1, 1, m⟩ ∧
        Scalar.isNaN (m.get 0 0) = true ∧
          trajectories (.stored ⟨1, 1, m⟩) (.stored ⟨1, 1, .whole ⟨#v[1]⟩⟩)
            (some ⟨-1, 0, false, 1, Scalar.inf⟩) = .ok ⟨0, none⟩ := by
  intro factor factor'
  refine ⟨_, Operand.product_stored factor factor', by decide +kernel, ?_⟩
  have usable : (⟨-1, 0, false, 1, Scalar.inf⟩ : Options Float).Usable :=
    ⟨by decide, by with_unfolding_all decide, by with_unfolding_all decide, ⟨.twoRows, rfl⟩, nofun⟩
  have planned := Options.plan_eq_ok_iff.mpr ⟨usable, .twoRows, rfl, rfl⟩
  have spoiled : Operand.Shows (factor.mul factor') (.stored ⟨1, 1, factor.mul factor'⟩) := rfl
  have unit : Operand.Shows (.whole ⟨#v[1]⟩ : Sheet Float 1 1) (.stored ⟨1, 1, .whole ⟨#v[1]⟩⟩) :=
    rfl
  refine (trajectories_of_shows_eq_ok_iff spoiled unit).mpr
    ⟨by decide, by decide, _, planned, by with_unfolding_all decide,
      by with_unfolding_all decide, Plan.lost_of_unwanted rfl _, ?_⟩
  rw [align_of_unwanted _ _ rfl, Alignment.mk.injEq]
  exact ⟨by decide +kernel, rfl⟩

end EchoState.Warping
