import EchoState.Proofs.Matrix.Representation
import EchoState.Proofs.Warping.Acceptance

/-!
# Trajectories and how they are represented

The samples of a stored trajectory are copied in the order of its rows, those of a trajectory behind
a reader are read in the order of its columns. Both come to the columns of the matrix, so an
alignment depends on the two matrices and on nothing else. Where a read fails, the first failure in
the order of the columns is all there is. The program stops at a trajectory whose cells cannot be
counted, and where the walk back along a wanted path leaves the table.
-/

namespace EchoState

namespace View

variable {α : Type}

/-- Some cell of the reported shape cannot be read. -/
def Faulty (v : View α) : Prop :=
  ∃ i < v.rows.toNat, ∃ j < v.cols.toNat, ∃ error, (v.read i j).outcome = .error error

/-- Read column by column and from top to bottom, the view fails at this cell first. -/
structure FirstFault (v : View α) (i j : Nat) (error : Error α) : Prop where
  row_lt : i < v.rows.toNat
  col_lt : j < v.cols.toNat
  failed : (v.read i j).outcome = .error error
  earlier : ∀ i' j', i' < v.rows.toNat → j' < j ∨ j' = j ∧ i' < i →
    ∃ value, v.read i' j' = .ok value

end View

namespace Warping

/-! ## Reading samples -/

section Reading

variable {α : Type} {channels count : Nat} {v : View α}

/-- Reads that succeed put what they read into the buffer. -/
theorem readInto_of_ok {cell : Fin count → Fin channels → α}
    {places : List (Fin count × Fin channels)}
    (succeeds : ∀ j i, (j, i) ∈ places → v.read i j = .ok (cell j i))
    (samples : Grid α count channels) :
    readInto v samples places =
      .ok (places.foldl (fun samples place =>
        samples.set place.1 place.2 (cell place.1 place.2)) samples) := by
  induction places generalizing samples with
  | nil => rfl
  | cons place rest ih =>
      obtain ⟨j, i⟩ := place
      rw [readInto, succeeds j i (List.mem_cons_self ..), Reading.outcome_ok, Outcome.ok_bind,
        List.foldl_cons]
      exact ih (fun j i later => succeeds j i (List.mem_cons_of_mem _ later)) _

/-- The view can be read in each of the places. -/
def Readable (v : View α) (places : List (Fin count × Fin channels)) : Prop :=
  ∀ j i, (j, i) ∈ places → ∃ value, v.read i j = .ok value

theorem readable_cons {j : Fin count} {i : Fin channels} {value : α}
    (here : v.read i j = .ok value) {places : List (Fin count × Fin channels)}
    (rest : Readable v places) : Readable v ((j, i) :: places) := by
  intro j' i' listed
  rw [List.mem_cons, Prod.mk.injEq] at listed
  rcases listed with ⟨rfl, rfl⟩ | later
  · exact ⟨value, here⟩
  · exact rest j' i' later

/-- A run of reads succeeds in each place, or it ends with its first failure. -/
theorem readInto_cases (v : View α) (samples : Grid α count channels)
    (places : List (Fin count × Fin channels)) :
    (∃ filled, readInto v samples places = .ok filled ∧ Readable v places) ∨
      ∃ (before : List (Fin count × Fin channels)) (j : Fin count) (i : Fin channels)
        (after : List (Fin count × Fin channels)) (error : Error α),
        places = before ++ (j, i) :: after ∧ Readable v before ∧
          (v.read i j).outcome = .error error ∧ readInto v samples places = .error error := by
  induction places generalizing samples with
  | nil => exact Or.inl ⟨samples, rfl, nofun⟩
  | cons place rest ih =>
      obtain ⟨j, i⟩ := place
      rw [readInto]
      cases here : v.read i j with
      | failed value error =>
          exact Or.inr
            ⟨[], j, i, rest, error, rfl, nofun, by rw [here, Reading.outcome_failed], rfl⟩
      | ok value =>
          rw [Reading.outcome_ok, Outcome.ok_bind]
          rcases ih (samples.set j i value) with ⟨filled, finished, each⟩ |
            ⟨before, j', i', after, error, split, each, failed, ended⟩
          · exact Or.inl ⟨filled, finished, readable_cons here each⟩
          · refine Or.inr ⟨(j, i) :: before, j', i', after, error, ?_, readable_cons here each,
              failed, ended⟩
            rw [split, List.cons_append]

variable [Scalar α]

theorem columns_view {v : View α}
    (checked : checkBuffer v.rows v.cols = (.ok () : Outcome α Unit)) :
    columns (.view v) = (readSamples v v.rows.toNat v.cols.toNat).map samplesOf := by
  unfold columns
  dsimp only
  rw [checked, Outcome.ok_bind]
  cases readSamples v v.rows.toNat v.cols.toNat <;> rfl

/-- The samples of a view can be read if each of its cells can, and otherwise reading them ends with
the first failure. -/
theorem columns_view_cases {v : View α}
    (checked : checkBuffer v.rows v.cols = (.ok () : Outcome α Unit)) :
    (∃ samples, columns (.view v) = .ok samples) ∧
        (∀ i < v.rows.toNat, ∀ j < v.cols.toNat, ∃ value, v.read i j = .ok value) ∨
      ∃ i j error, v.FirstFault i j error ∧ columns (.view v) = .error error := by
  rw [columns_view checked]
  rcases readInto_cases v .zero (Grid.positions v.cols.toNat v.rows.toNat) with
    ⟨filled, finished, each⟩ | ⟨before, j, i, after, error, walk, each, failed, ended⟩
  · refine Or.inl ⟨⟨samplesOf filled, congrArg (Except.map samplesOf) finished⟩, ?_⟩
    exact fun i iLt j jLt => each ⟨j, jLt⟩ ⟨i, iLt⟩ (Grid.mem_positions _ _)
  · refine Or.inr ⟨i, j, error, ⟨i.isLt, j.isLt, failed, fun i' j' iLt precedes => ?_⟩,
      congrArg (Except.map samplesOf) ended⟩
    have jLt : j' < v.cols.toNat := by omega
    have precedes' : (⟨j', jLt⟩ : Fin _) < j ∨ ⟨j', jLt⟩ = j ∧ (⟨i', iLt⟩ : Fin _) < i := by
      rw [Fin.ext_iff]
      exact precedes
    exact each ⟨j', jLt⟩ ⟨i', iLt⟩ ((Grid.mem_before_iff walk).mpr precedes')

/-- A view that cannot be read in some place is not read at all. -/
theorem columns_of_faulty {v : View α} (fits : v.rows.toNat * v.cols.toNat < wordLimit)
    (faulty : v.Faulty) :
    ∃ i j error, v.FirstFault i j error ∧ columns (.view v) = .error error := by
  have checked : checkBuffer v.rows v.cols = (.ok () : Outcome α Unit) := by
    obtain ⟨i, iLt, j, jLt, -⟩ := faulty
    exact checkBuffer_eq_ok_iff.mpr ⟨by omega, by omega, fits⟩
  rcases columns_view_cases checked with ⟨_, each⟩ | fault
  · obtain ⟨i, iLt, j, jLt, error, failed⟩ := faulty
    obtain ⟨value, read⟩ := each i iLt j jLt
    rw [read] at failed
    cases failed
  · exact fault

/-- Behind a reader or not, the buffer is the same. -/
theorem readSamples_of_shows {m : Sheet α channels count}
    (shows : Operand.Shows m (.view v)) :
    readSamples v channels count = .ok (copySamples m) := by
  have filled : readSamples v channels count = .ok _ :=
    readInto_of_ok (fun j i _ => shows.2.2 i j) .zero
  refine filled.trans (congrArg Except.ok (Grid.ext_get fun j i => ?_))
  rw [get_copySamples]
  exact (Grid.get_foldl_set (fun j i => m.get i j) _ _ j i).1 (Grid.mem_positions j i)

theorem columns_of_shows {m : Sheet α channels count} {x : Operand α} (shows : x.Shows m) :
    columns x = columns (.stored ⟨channels, count, m⟩) := by
  cases x with
  | absent => exact shows.elim
  | stored s => rw [show s = _ from shows]
  | view v =>
      obtain ⟨read, rfl⟩ := shows.exists_read
      refine congrArg (checkBuffer (channels : Int) count >>= ·) (funext fun _ => ?_)
      exact congrArg (· >>= fun samples => pure (samplesOf samples)) (readSamples_of_shows shows)

/-- There are such samples when the cells can be counted, and they are the columns. -/
theorem columns_stored_eq_ok_iff {m : Sheet α channels count} {samples : Array (List α)} :
    columns (.stored ⟨channels, count, m⟩) = .ok samples ↔
      channels * count < wordLimit ∧ samples = Array.ofFn fun j => (m.column j).toList := by
  constructor
  · intro read
    have fits : channels * count < wordLimit := (exists_samplesOf_of_columns read).2.1
    exact ⟨fits, Except.ok.inj (read.symm.trans (columns_stored fits m))⟩
  · rintro ⟨fits, rfl⟩
    exact columns_stored fits m

end Reading

/-! ## Alignments -/

section Alignments

variable {α : Type} [Scalar α]

/-- The distances between the columns of two matrices. -/
def columnGrid [Distances α] {channels channels' n m : Nat} (norm : α) (left : Sheet α channels n)
    (right : Sheet α channels' m) (i : Fin n) (j : Fin m) : α :=
  Distances.between norm (List.ofFn fun k => left.get k i) (List.ofFn fun k => right.get k j)

/-- Grids with the same costs are aligned in the same way, however their sizes are written. -/
theorem align_congr {n n' m m' : Nat} (sameRows : n = n') (sameCols : m = m')
    {grid : Fin n → Fin m → α} {grid' : Fin n' → Fin m' → α}
    (same : ∀ i j, grid i j = grid' (i.cast sameRows) (j.cast sameCols)) (plan : Plan α) :
    align grid plan = align grid' plan := by
  subst sameRows sameCols
  rw [show grid = grid' from funext fun i => funext fun j => same i j]

variable {channels channels' n m : Nat} {left : Sheet α channels n} {right : Sheet α channels' m}

theorem align_sampleGrid_columns [Distances α] (norm : α) (plan : Plan α) :
    align (sampleGrid norm (Array.ofFn fun j => (left.column j).toList)
        (Array.ofFn fun j => (right.column j).toList)) plan =
      align (columnGrid norm left right) plan := by
  refine align_congr Array.size_ofFn Array.size_ofFn (fun i j => ?_) plan
  have sample {c count : Nat} (sheet : Sheet α c count)
      (k : Fin (Array.ofFn fun j => (sheet.column j).toList).size) :
      (Array.ofFn fun j => (sheet.column j).toList)[k] =
        List.ofFn fun i => sheet.get i (k.cast Array.size_ofFn) :=
    (Array.getElem_ofFn _).trans Vector.toList_ofFn
  exact congrArg₂ (Distances.between norm) (sample left i) (sample right j)

variable {x y : Operand α} (leftShown : x.Shows left) (rightShown : y.Shows right)

include leftShown rightShown

/-- Operands that show two matrices are aligned, or refused, as the stored matrices are. -/
theorem trajectories_of_shows [Distances α] (options : Option (Options α)) :
    trajectories x y options =
      trajectories (.stored ⟨channels, n, left⟩) (.stored ⟨channels', m, right⟩) options := by
  unfold trajectories
  rw [leftShown.isAbsent_eq, rightShown.isAbsent_eq, leftShown.rows_eq, rightShown.rows_eq,
    leftShown.cols_eq, rightShown.cols_eq, columns_of_shows leftShown,
    columns_of_shows rightShown]
  rfl

theorem comparable_of_shows_iff :
    Comparable x y ↔ channels = channels' ∧ n ≠ 0 ∧ m ≠ 0 := by
  constructor
  · rintro ⟨-, -, same, nSome, mSome⟩
    rw [leftShown.rows_eq, rightShown.rows_eq, Int.ofNat_inj] at same
    rw [leftShown.cols_eq, Int.natCast_ne_zero] at nSome
    rw [rightShown.cols_eq, Int.natCast_ne_zero] at mSome
    exact ⟨same, nSome, mSome⟩
  · rintro ⟨rfl, nSome, mSome⟩
    refine ⟨leftShown.isAbsent_eq, rightShown.isAbsent_eq, ?_, ?_, ?_⟩
    · rw [leftShown.rows_eq, rightShown.rows_eq]
    · rwa [leftShown.cols_eq, Int.natCast_ne_zero]
    · rwa [rightShown.cols_eq, Int.natCast_ne_zero]

/-- Operands that show two matrices with the same channels and with samples that can be counted, and
no others, are aligned, and their alignment is that over the distances of the columns. -/
theorem trajectories_of_shows_eq_ok_iff [Distances α] {options : Option (Options α)}
    {alignment : Alignment α} :
    trajectories x y options = .ok alignment ↔
      (channels = channels' ∧ n ≠ 0 ∧ m ≠ 0) ∧
        (channels * n < wordLimit ∧ channels' * m < wordLimit) ∧
        ∃ plan, Options.resolve options = .ok plan ∧
          Scalar.isNaN plan.norm = false ∧ Scalar.lt plan.norm 1 = false ∧
            plan.lost (align (columnGrid plan.norm left right) plan) = false ∧
              alignment = align (columnGrid plan.norm left right) plan := by
  rw [trajectories_eq_ok_iff, comparable_of_shows_iff leftShown rightShown,
    columns_of_shows leftShown, columns_of_shows rightShown]
  refine and_congr_right fun _ => ?_
  constructor
  · rintro ⟨plan, resolved, number, large, _, _, leftRead, rightRead, made⟩
    obtain ⟨leftFits, rfl⟩ := columns_stored_eq_ok_iff.mp leftRead
    obtain ⟨rightFits, rfl⟩ := columns_stored_eq_ok_iff.mp rightRead
    rw [align_sampleGrid_columns] at made
    exact ⟨⟨leftFits, rightFits⟩, plan, resolved, number, large, made⟩
  · rintro ⟨⟨leftFits, rightFits⟩, plan, resolved, number, large, made⟩
    rw [← align_sampleGrid_columns] at made
    exact ⟨plan, resolved, number, large, _, _, columns_stored leftFits left,
      columns_stored rightFits right, made⟩

end Alignments

/-! ## Reads that fail -/

section Faults

variable {α : Type} [Scalar α] {x y : Operand α} {options : Option (Options α)} {plan : Plan α}

/-- What is left to do for trajectories that can be compared, under options with a norm. -/
theorem trajectories_of_comparable [Distances α] (comparable : Comparable x y)
    (planned : Options.resolve options = .ok plan) (number : Scalar.isNaN plan.norm = false)
    (large : Scalar.lt plan.norm 1 = false) :
    trajectories x y options = columns x >>= fun left => columns y >>= fun right =>
      plan.deliver (align (sampleGrid plan.norm left right) plan) := by
  have given : ¬(x.isAbsent || y.isAbsent) = true := by
    rw [comparable.left_given, comparable.right_given]
    exact Bool.false_ne_true
  have samples : ¬(x.cols = 0 ∨ y.cols = 0) :=
    not_or.mpr ⟨comparable.left_samples, comparable.right_samples⟩
  unfold trajectories
  rw [if_neg given, if_neg (not_not.mpr comparable.channels), if_neg samples, planned,
    Outcome.ok_bind, number, large]
  rfl

end Faults

/-- Trajectories that are stored, and trajectories of which only the shape and a reader are known,
have the same alignment, with the same distance and path, or the same error: it is that over the
distances of the columns of the two matrices. It is there when the matrices have the same channels
and samples that can be counted, the options can be followed, and the walk back along a wanted path
stays in the table. A read that fails ends the comparison with its own error, the first one in the
order of the columns, and the left trajectory is read first. -/
theorem trajectories_across_representations {α : Type} [Scalar α] [Distances α]
    (options : Option (Options α)) :
    (∀ {channels channels' n m : Nat} (left : Sheet α channels n) (right : Sheet α channels' m)
      (x y : Operand α), x.Shows left → y.Shows right →
        trajectories x y options =
          trajectories (.stored ⟨channels, n, left⟩) (.stored ⟨channels', m, right⟩) options ∧
        ∀ alignment, trajectories x y options = .ok alignment ↔
          (channels = channels' ∧ n ≠ 0 ∧ m ≠ 0) ∧
            (channels * n < wordLimit ∧ channels' * m < wordLimit) ∧
            ∃ plan, Options.resolve options = .ok plan ∧
              Scalar.isNaN plan.norm = false ∧ Scalar.lt plan.norm 1 = false ∧
                plan.lost (align (columnGrid plan.norm left right) plan) = false ∧
                  alignment = align (columnGrid plan.norm left right) plan) ∧
      ∀ (x y : Operand α) (plan : Plan α), Comparable x y →
        Options.resolve options = .ok plan → Scalar.isNaN plan.norm = false →
          Scalar.lt plan.norm 1 = false →
            (∀ v, x = .view v → v.rows.toNat * v.cols.toNat < wordLimit → v.Faulty →
              ∃ i j error, v.FirstFault i j error ∧ trajectories x y options = .error error) ∧
            (∀ v, y = .view v → v.rows.toNat * v.cols.toNat < wordLimit → v.Faulty →
              (∃ samples, columns x = .ok samples) →
                ∃ i j error, v.FirstFault i j error ∧ trajectories x y options = .error error) := by
  refine ⟨fun left right x y leftShown rightShown => ⟨?_, fun alignment => ?_⟩,
    fun x y plan comparable planned number large => ?_⟩
  · exact trajectories_of_shows leftShown rightShown options
  · exact trajectories_of_shows_eq_ok_iff leftShown rightShown
  · rw [trajectories_of_comparable comparable planned number large]
    constructor
    · rintro v rfl fits faulty
      obtain ⟨i, j, error, first, failed⟩ := columns_of_faulty fits faulty
      exact ⟨i, j, error, first, by rw [failed, Outcome.error_bind]⟩
    · rintro v rfl fits faulty ⟨samples, read⟩
      obtain ⟨i, j, error, first, failed⟩ := columns_of_faulty fits faulty
      exact ⟨i, j, error, first, by rw [read, Outcome.ok_bind, failed, Outcome.error_bind]⟩

/-- A trajectory behind a reader beside a stored one, and the stored one beside a reader that fails
at one cell, in binary64. -/
theorem trajectories_across_representations_binary64 :
    let left : Sheet Float 2 2 := .whole ⟨#v[0, 1, Scalar.nan, 3]⟩
    let right : Sheet Float 2 3 := .whole ⟨#v[0, 1, 1, 2, 3, Scalar.inf]⟩
    let torn : View Float :=
      ⟨2, 3, fun i j => if i = 1 ∧ j = 0 then .error (.of .unreadable) else .ok 0⟩
    trajectories (.view (.ofMatrix ⟨2, 2, left⟩)) (.stored ⟨2, 3, right⟩) none =
        trajectories (.stored ⟨2, 2, left⟩) (.stored ⟨2, 3, right⟩) none ∧
      trajectories (.stored ⟨2, 2, left⟩) (.view torn) none = .error (.of .unreadable) := by
  intro left right torn
  obtain ⟨shown, faults⟩ := trajectories_across_representations (none : Option (Options Float))
  have kept : Operand.Shows right (.stored ⟨2, 3, right⟩) := rfl
  refine ⟨(shown left right _ _ (Operand.shows_ofMatrix left) kept).1, ?_⟩
  obtain ⟨storage, -, planned⟩ := (Options.usable_standard (α := Float)).exists_plan
  have comparable : Comparable (.stored ⟨2, 2, left⟩) (.view torn) :=
    ⟨rfl, rfl, rfl, by decide, by decide⟩
  have norm : Scalar.isNaN (Options.standard : Options Float).norm = false ∧
      Scalar.lt (Options.standard : Options Float).norm 1 = false := by
    with_unfolding_all decide
  have faulty : torn.Faulty := ⟨1, by decide, 0, by decide, _, rfl⟩
  obtain ⟨i, j, error, first, refused⟩ :=
    (faults _ _ _ comparable planned norm.1 norm.2).2 torn rfl (by decide) faulty
      ⟨_, columns_stored (by decide) left⟩
  have failed : (torn.read i j).outcome = .error error := first.failed
  unfold torn at failed
  dsimp only at failed
  split at failed
  · rw [refused, ← Except.error.inj failed]
  · cases failed

end Warping

end EchoState
