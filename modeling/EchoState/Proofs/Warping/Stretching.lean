import EchoState.Proofs.Warping.Separation
import EchoState.Proofs.Warping.Symmetry

/-!
# Stretched series

Repeating samples of a series makes it longer, and an alignment with the series itself then leaves
the diagonal at least once for each sample that was added. A path costs at least the penalties of
its steps off the diagonal, added up one by one. The staircase that stays on a sample for as long as
it is repeated costs exactly these, so they are the distance.
-/

namespace EchoState.Warping

/-! ## Steps off the diagonal -/

namespace Path

variable {i j : Nat}

/-- The number of steps that advance one side only. -/
def sidesteps : {i j : Nat} → Path i j → Nat
  | _, _, .start => 0
  | _, _, .diagonal before => before.sidesteps
  | _, _, .down before => before.sidesteps + 1
  | _, _, .across before => before.sidesteps + 1

theorem apart_le_sidesteps (path : Path i j) : (i - j) + (j - i) ≤ path.sidesteps := by
  induction path with
  | start => exact Nat.le_refl 0
  | diagonal before ih =>
      rw [sidesteps]
      omega
  | down before ih =>
      rw [sidesteps]
      omega
  | across before ih =>
      rw [sidesteps]
      omega

end Path

/-! ## Penalties -/

/-- The amount that is reached from zero by adding a penalty a number of times. -/
def penalties {α : Type} [Scalar α] (penalty : α) : Nat → α
  | 0 => 0
  | count + 1 => penalties penalty count + penalty

section Penalties

variable {α : Type} [Scalar α] {penalty : α}

open Scalar OrderedScalar AdditiveScalar SignedZeroScalar

theorem penalties_nonneg [AdditiveScalar α] (penaltyNonneg : le 0 penalty) (count : Nat) :
    le 0 (penalties penalty count) := by
  induction count with
  | zero => exact zero_le_zero
  | succ count ih => exact add_nonneg ih penaltyNonneg

theorem penalties_mono [AdditiveScalar α] (penaltyNonneg : le 0 penalty) {count more : Nat}
    (atMost : count ≤ more) : le (penalties penalty count) (penalties penalty more) := by
  induction atMost with
  | refl => exact le_refl (number_of_nonneg (penalties_nonneg penaltyNonneg count))
  | @step more _ ih =>
      have onward := le_add_right (penalties_nonneg penaltyNonneg more) penaltyNonneg
      exact le_trans ih onward

variable [SignedZeroScalar α]

theorem penalties_ne_neg_zero (count : Nat) : penalties penalty count ≠ -0 := by
  induction count with
  | zero => exact zero_ne_neg_zero
  | succ count ih => exact fun negative => ih (neg_zeros_of_add negative).1

theorem penalties_of_isZero (none : isZero penalty) (count : Nat) :
    penalties penalty count = 0 := by
  induction count with
  | zero => rfl
  | succ count ih =>
      rw [penalties, ih]
      exact add_of_isZero none zero_ne_neg_zero

end Penalties

section Costs

variable {α : Type} [Scalar α] [MetricScalar α] {n m : Nat} {grid : Fin n → Fin m → α}
  {options : Options α} (charges : Chargeable grid options)

open Scalar OrderedScalar AdditiveScalar

/-- Every pair that a path visits costs nothing. -/
def Path.Free (grid : Fin n → Fin m → α) {i j : Nat} (path : Path i j) : Prop :=
  ∀ cell ∈ path.cells, ∀ (iLt : cell.1 < n) (jLt : cell.2 < m),
    le (grid ⟨cell.1, iLt⟩ ⟨cell.2, jLt⟩) 0

include charges

/-- A path costs at least the penalties of its steps off the diagonal. -/
theorem Chargeable.penalties_le_cost {i j : Nat} (path : Path i j) (iLt : i < n) (jLt : j < m) :
    le (penalties options.slopePenalty path.sidesteps)
      (path.cost grid options.slopePenalty iLt jLt) := by
  have spent := penalties_nonneg charges.penalty_nonneg
  induction path with
  | start => exact charges.grid_nonneg _ _
  | diagonal before ih =>
      have bound := ih (Nat.lt_of_succ_lt iLt) (Nat.lt_of_succ_lt jLt)
      exact le_trans bound (le_add_left (charges.grid_nonneg _ _) (charges.cost_nonneg _ _ _))
  | down before ih =>
      have bound := charges.penalized_le_penalized (spent _) (ih (Nat.lt_of_succ_lt iLt) jLt)
      exact le_trans bound (le_add_left (charges.grid_nonneg _ _)
        (add_nonneg (charges.cost_nonneg _ _ _) charges.penalty_nonneg))
  | across before ih =>
      have bound := charges.penalized_le_penalized (spent _) (ih iLt (Nat.lt_of_succ_lt jLt))
      exact le_trans bound (le_add_left (charges.grid_nonneg _ _)
        (add_nonneg (charges.cost_nonneg _ _ _) charges.penalty_nonneg))

/-- A path through pairs that cost nothing costs at most the penalties of its steps off the
diagonal. -/
theorem Chargeable.cost_le_penalties {i j : Nat} {path : Path i j} (free : path.Free grid)
    (iLt : i < n) (jLt : j < m) :
    le (path.cost grid options.slopePenalty iLt jLt)
      (penalties options.slopePenalty path.sidesteps) := by
  induction path with
  | start => exact free _ (List.mem_singleton_self _) iLt jLt
  | diagonal before ih =>
      obtain ⟨earlier, here⟩ := Path.forall_mem_cells_diagonal.mp free
      have bound := ih earlier (Nat.lt_of_succ_lt iLt) (Nat.lt_of_succ_lt jLt)
      have nonneg := charges.cost_nonneg before (Nat.lt_of_succ_lt iLt) (Nat.lt_of_succ_lt jLt)
      exact le_trans (add_le_of_le_zero (charges.grid_nonneg _ _) (here _ _) nonneg) bound
  | down before ih =>
      obtain ⟨earlier, here⟩ := Path.forall_mem_cells_down.mp free
      have nonneg := charges.cost_nonneg before (Nat.lt_of_succ_lt iLt) jLt
      have bound := charges.penalized_le_penalized nonneg (ih earlier (Nat.lt_of_succ_lt iLt) jLt)
      exact le_trans (add_le_of_le_zero (charges.grid_nonneg _ _) (here _ _)
        (add_nonneg nonneg charges.penalty_nonneg)) bound
  | across before ih =>
      obtain ⟨earlier, here⟩ := Path.forall_mem_cells_across.mp free
      have nonneg := charges.cost_nonneg before iLt (Nat.lt_of_succ_lt jLt)
      have bound := charges.penalized_le_penalized nonneg (ih earlier iLt (Nat.lt_of_succ_lt jLt))
      exact le_trans (add_le_of_le_zero (charges.grid_nonneg _ _) (here _ _)
        (add_nonneg nonneg charges.penalty_nonneg)) bound

/-- No alignment is cheaper than the penalties for the difference of the two lengths. -/
theorem Chargeable.penalties_le_value (usable : -1 ≤ options.window) {i j : Nat} (iLt : i < n)
    (jLt : j < m) :
    le (penalties options.slopePenalty ((i - j) + (j - i)))
      (value options.rule grid (i + 1) (j + 1) iLt jLt) := by
  rcases charges.value_attained usable i j iLt jLt with infinite | ⟨path, _, attained⟩
  · rw [infinite]
    exact le_inf (penalties_nonneg charges.penalty_nonneg _)
  · have necessary := penalties_mono charges.penalty_nonneg path.apart_le_sidesteps
    have spent := charges.penalties_le_cost path iLt jLt
    exact le_trans necessary (le_trans spent (eq_iff.mp attained).2)

/-- Without a band, a path through pairs that cost nothing decides the last value of the recurrence
when it leaves the diagonal no more often than it must. -/
theorem Chargeable.value_eq_penalties [DiscreteScalar α] (unbounded : options.window = -1)
    {i j : Nat} (iLast : n = i + 1) (jLast : m = j + 1) {path : Path i j}
    (free : path.Free grid) (necessary : path.sidesteps = (i - j) + (j - i)) :
    value options.rule grid n m (Nat.le_refl n) (Nat.le_refl m) =
      penalties options.slopePenalty path.sidesteps := by
  subst iLast jLast
  have usable : -1 ≤ options.window := Int.le_of_eq unbounded.symm
  have atLeast := charges.penalties_le_value usable (Nat.lt_succ_self i) (Nat.lt_succ_self j)
  rw [← necessary] at atLeast
  have atMost := le_trans
    (charges.value_le_cost usable path (Nat.lt_succ_self i) (Nat.lt_succ_self j)
      fun _ _ => Or.inl unbounded)
    (charges.cost_le_penalties free (Nat.lt_succ_self i) (Nat.lt_succ_self j))
  -- Neither side is the negative zero, so numerically equal is equal.
  exact DiscreteScalar.eq_of_eq (eq_iff.mpr ⟨atMost, atLeast⟩) (value_ne_neg_zero _ _ _ _ _ _)
    (penalties_ne_neg_zero _)

end Costs

/-! ## The staircase -/

section Staircase

variable {α : Type} {xs ys : List α} {x : α}

/-- The lists have the same sample at the two ends of every pair that the path visits. -/
def Path.Matches (xs ys : List α) {i j : Nat} (path : Path i j) : Prop :=
  ∀ cell ∈ path.cells, ∃ x, xs[cell.1]? = some x ∧ ys[cell.2]? = some x

theorem Path.Matches.append {i j : Nat} {path : Path i j} (same : path.Matches xs ys)
    (xs' ys' : List α) : path.Matches (xs ++ xs') (ys ++ ys') := by
  intro cell visited
  obtain ⟨x, left, right⟩ := same cell visited
  obtain ⟨leftInside, _⟩ := List.getElem?_eq_some_iff.mp left
  obtain ⟨rightInside, _⟩ := List.getElem?_eq_some_iff.mp right
  refine ⟨x, ?_, ?_⟩
  · rwa [List.getElem?_append_left leftInside]
  · rwa [List.getElem?_append_left rightInside]

/-- A path to the last samples matches the lists and leaves the diagonal only for the samples that
the second has more. -/
def Staircase (xs ys : List α) : Prop :=
  ∃ i j, xs.length = i + 1 ∧ ys.length = j + 1 ∧
    ∃ path : Path i j, path.sidesteps + i = j ∧ path.Matches xs ys

namespace Staircase

theorem single (x : α) : Staircase [x] [x] :=
  ⟨0, 0, rfl, rfl, .start, rfl, List.forall_mem_singleton.mpr ⟨x, rfl, rfl⟩⟩

theorem next (stairs : Staircase xs ys) (x : α) : Staircase (xs ++ [x]) (ys ++ [x]) := by
  obtain ⟨i, j, xsLong, ysLong, path, steps, same⟩ := stairs
  refine ⟨i + 1, j + 1, by rw [List.length_append, xsLong]; rfl,
    by rw [List.length_append, ysLong]; rfl, path.diagonal, congrArg (· + 1) steps, ?_⟩
  refine Path.forall_mem_cells_diagonal.mpr ⟨same.append _ _, x, ?_, ?_⟩
  · rw [← xsLong, List.getElem?_concat_length]
  · rw [← ysLong, List.getElem?_concat_length]

theorem repeated (stairs : Staircase (xs ++ [x]) ys) : Staircase (xs ++ [x]) (ys ++ [x]) := by
  obtain ⟨i, j, xsLong, ysLong, path, steps, same⟩ := stairs
  refine ⟨i, j + 1, xsLong, by rw [List.length_append, ysLong]; rfl, path.across, ?_, ?_⟩
  · rw [Path.sidesteps, Nat.add_right_comm, steps]
  · obtain rfl : xs.length = i := by simpa using xsLong
    have earlier := same.append [] [x]
    rw [List.append_nil] at earlier
    refine Path.forall_mem_cells_across.mpr ⟨earlier, x, ?_, ?_⟩
    · exact List.getElem?_concat_length
    · rw [← ysLong, List.getElem?_concat_length]

theorem repeatedly (stairs : Staircase (xs ++ [x]) ys) (more : Nat) :
    Staircase (xs ++ [x]) (ys ++ List.replicate more x) := by
  induction more with
  | zero => rwa [List.replicate_zero, List.append_nil]
  | succ more ih =>
      rw [List.replicate_succ', ← List.append_assoc]
      exact ih.repeated

end Staircase

/-- The samples of runs, each as often as its run is long. -/
def expand (runs : List (α × Nat)) : List α :=
  runs.flatMap fun run => List.replicate run.2 run.1

theorem expand_append_run (runs : List (α × Nat)) (x : α) (count : Nat) :
    expand (runs ++ [(x, count)]) = expand runs ++ List.replicate count x := by
  rw [expand, List.flatMap_append, List.flatMap_singleton]
  rfl

theorem staircase_expand {runs : List (α × Nat)} (some : runs ≠ [])
    (counted : ∀ run ∈ runs, 1 ≤ run.2) : Staircase (runs.map Prod.fst) (expand runs) := by
  -- The last run goes last, as a path is built from its first pair on.
  induction runs using List.reverseRecOn with
  | nil => exact absurd rfl some
  | append_singleton earlier run ih =>
      obtain ⟨x, count⟩ := run
      rw [List.forall_mem_append, List.forall_mem_singleton] at counted
      obtain ⟨more, rfl⟩ := Nat.exists_eq_add_of_le counted.2
      rw [List.map_append, expand_append_run, List.replicate_add, ← List.append_assoc]
      apply Staircase.repeatedly
      by_cases first : earlier = []
      · subst first
        exact .single x
      · exact (ih first counted.1).next x

end Staircase

/-! ## Series -/

/-- A series in which each sample is repeated a number of times. -/
def stretch {α : Type} (a : Array α) (counts : Fin a.size → Nat) : Array α :=
  (expand (List.ofFn fun i => (a.toVector.get i, counts i))).toArray

section Series

variable {α : Type} {a : Array α} {counts : Fin a.size → Nat}

theorem staircase_stretch (some : a ≠ #[]) (counted : ∀ i, 1 ≤ counts i) :
    Staircase a.toList (stretch a counts).toList := by
  have samples : (List.ofFn fun i => (a[i], counts i)).map Prod.fst = a.toList := by
    rw [List.map_ofFn]
    exact List.ofFn_getElem
  rw [← samples]
  apply staircase_expand
  · rw [ne_eq, List.ofFn_eq_nil_iff]
    exact mt Array.eq_empty_of_size_eq_zero some
  · intro run isRun
    obtain ⟨i, rfl⟩ := List.mem_ofFn.mp isRun
    exact counted i

theorem mem_of_mem_stretch {x : α} (isSample : x ∈ stretch a counts) : x ∈ a := by
  rw [stretch, List.mem_toArray, expand, List.mem_flatMap] at isSample
  obtain ⟨run, isRun, repeated⟩ := isSample
  obtain ⟨i, rfl⟩ := List.mem_ofFn.mp isRun
  rw [List.eq_of_mem_replicate repeated]
  exact Array.getElem_mem i.isLt

variable [Scalar α] [MetricScalar α] {b : Array α}

open Scalar

theorem Path.Matches.free (finite : ∀ x ∈ a, finite x) {i j : Nat} {path : Path i j}
    (same : path.Matches a.toList b.toList) : path.Free (gapGrid a b) := by
  intro cell visited iLt jLt
  obtain ⟨x, left, right⟩ := same cell visited
  obtain ⟨_, rfl⟩ := List.getElem?_eq_some_iff.mp left
  obtain ⟨_, equal⟩ := List.getElem?_eq_some_iff.mp right
  have isFinite : Scalar.finite a[cell.1] := finite _ (Array.getElem_mem iLt)
  have gap : gapGrid a b ⟨cell.1, iLt⟩ ⟨cell.2, jLt⟩ = abs (a[cell.1] - a[cell.1]) :=
    congrArg (fun y => abs (a[cell.1] - y)) equal
  rw [gap, GapScalar.abs_sub_self isFinite]
  exact zero_le_zero

variable [DiscreteScalar α] {options : Options α}

/-- Without a band, finite series with a staircase are aligned at the penalties for the samples that
the second has more. -/
theorem value_of_staircase (aFinite : ∀ x ∈ a, finite x) (bFinite : ∀ x ∈ b, finite x)
    (stairs : Staircase a.toList b.toList) (penaltyNonneg : le 0 options.slopePenalty)
    (unbounded : options.window = -1) :
    value options.rule (gapGrid a b) a.size b.size (Nat.le_refl _) (Nat.le_refl _) =
      penalties options.slopePenalty (b.size - a.size) := by
  obtain ⟨i, j, aLong, bLong, path, steps, same⟩ := stairs
  rw [Array.length_toList] at aLong bLong
  have added : path.sidesteps = b.size - a.size := by omega
  have charges : Chargeable (gapGrid a b) options :=
    ⟨gapGrid_nonneg aFinite bFinite, penaltyNonneg⟩
  rw [← added]
  exact charges.value_eq_penalties unbounded aLong bLong (same.free aFinite) (by omega)

/-- Without a band, a finite series is aligned with a stretched form of itself, in either order, at
the penalties for the samples that were added, accumulated one by one. A penalty of zero makes that
zero. -/
theorem series_stretched (aFinite : ∀ x ∈ a, finite x) (some : a ≠ #[])
    (counted : ∀ i, 1 ≤ counts i) {options : Option (Options α)}
    (usable : (options.getD .standard).Usable)
    (unbounded : (options.getD .standard).window = -1) :
    let b := stretch a counts
    let distance := penalties (options.getD .standard).slopePenalty (b.size - a.size)
    (∃ alignment, series a b options = .ok alignment ∧ alignment.distance = distance) ∧
      (∃ alignment, series b a options = .ok alignment ∧ alignment.distance = distance) ∧
      (isZero (options.getD .standard).slopePenalty → distance = 0) := by
  intro b distance
  have bFinite : ∀ x ∈ b, finite x := fun x isSample => aFinite x (mem_of_mem_stretch isSample)
  have stairs : Staircase a.toList b.toList := staircase_stretch some counted
  have bSome : b ≠ #[] := by
    obtain ⟨_, _, _, bLong, _⟩ := stairs
    intro empty
    rw [empty] at bLong
    cases bLong
  have forward := value_of_staircase aFinite bFinite stairs usable.penalty_nonneg unbounded
  have charges := usable.chargeable (gapGrid_nonneg aFinite bFinite)
  obtain ⟨storage, _, planned⟩ := usable.exists_plan
  refine ⟨⟨_, series_of_nonneg some bSome (gapGrid_nonneg aFinite bFinite) usable planned, ?_⟩,
    ⟨_, series_of_nonneg bSome some (gapGrid_nonneg bFinite aFinite) usable planned, ?_⟩,
    fun none => penalties_of_isZero none _⟩
  · rw [align_distance]
    exact forward
  · rw [gapGrid_flip fun x xIn y yIn => GapScalar.abs_sub_comm (aFinite x xIn) (bFinite y yIn),
      charges.align_flip_distance, align_distance]
    exact forward

end Series

/-- Three samples more at a penalty of 0.1 each add up to more than 0.3 in binary64. -/
theorem series_stretched_binary64 :
    let a : Array Float := #[0, 2]
    let options : Option (Options Float) := some ⟨-1, 0.1, false, 2, 2⟩
    stretch a ![3, 2] = #[0, 0, 0, 2, 2] ∧
      ∃ alignment, series a #[0, 0, 0, 2, 2] options = .ok alignment ∧
        alignment.distance = 0.30000000000000004 := by
  intro a options
  have aFinite : ∀ x ∈ a, Scalar.finite x := by with_unfolding_all decide
  have usable : (options.getD .standard).Usable :=
    ⟨by decide, by with_unfolding_all decide, by with_unfolding_all decide, ⟨.oneRow, rfl⟩, nofun⟩
  have counted : ∀ i : Fin a.size, 1 ≤ (![3, 2] : Fin a.size → Nat) i := by decide
  have stretched : stretch a ![3, 2] = #[0, 0, 0, 2, 2] := rfl
  obtain ⟨⟨alignment, aligned, distance⟩, _⟩ :=
    series_stretched aFinite (by decide) counted usable rfl
  rw [stretched] at aligned distance
  refine ⟨stretched, alignment, aligned, distance.trans ?_⟩
  with_unfolding_all decide

end EchoState.Warping
