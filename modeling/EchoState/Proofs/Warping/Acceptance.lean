import EchoState.Proofs.Scalar.Metric
import EchoState.Proofs.Warping.Optimality

/-!
# Accepted alignments

Options are usable when an alignment can follow them, and they become a plan exactly then. An
alignment of two series or of two trajectories that is accepted is the alignment over one grid of
costs: the gaps of the numbers, or the distances of the samples. It is returned unless the walk back
along a wanted path leaves the table.
-/

namespace EchoState.Warping

variable {α : Type} [Scalar α]

/-! ## Options -/

namespace Options

/-- Options that an alignment can follow. -/
structure Usable (options : Options α) : Prop where
  window_usable : -1 ≤ options.window
  penalty_finite : Scalar.finite options.slopePenalty
  penalty_nonneg : Scalar.le 0 options.slopePenalty
  mode_known : ∃ storage : Storage, options.memoryMode = storage.mode
  /-- A path is found in the whole table only. -/
  path_kept : options.wantsPath = true → options.memoryMode = Storage.table.mode

omit [Scalar α] in
theorem storage?_eq_some_iff {options : Options α} {storage : Storage} :
    options.storage? = some storage ↔ options.memoryMode = storage.mode := by
  unfold storage?
  constructor
  · intro chosen
    split at chosen
    · obtain rfl := Option.some.inj chosen
      assumption
    · split at chosen
      · obtain rfl := Option.some.inj chosen
        assumption
      · split at chosen
        · obtain rfl := Option.some.inj chosen
          assumption
        · cases chosen
  · intro same
    rw [same]
    cases storage <;> rfl

section Accepted

variable [AdditiveScalar α] {options : Options α}

open Scalar OrderedScalar

/-- A finite penalty is refused exactly when it is not from zero up. -/
theorem penalty_refused_iff :
    (!finite options.slopePenalty || lt options.slopePenalty 0) = false ↔
      finite options.slopePenalty ∧ le 0 options.slopePenalty := by
  rw [Bool.or_eq_false_iff, Bool.not_eq_false']
  refine and_congr_right fun isFinite => ?_
  rw [Bool.eq_false_iff, ne_eq, lt_iff, not_and_not_right]
  constructor
  · intro above
    by_contra negative
    have below := lt_of_not_le (number_of_nonneg zero_le_zero) (isNaN_of_finite isFinite) negative
    exact negative (above (le_of_lt below))
  · exact fun nonneg _ => nonneg

/-- Usable options, and no others, become a plan, which follows them as they are. -/
theorem plan_eq_ok_iff {plan : Plan α} :
    options.plan = .ok plan ↔
      options.Usable ∧ ∃ storage : Storage, options.memoryMode = storage.mode ∧
        plan = ⟨options.rule, storage, options.wantsPath, options.norm⟩ := by
  constructor
  · intro made
    unfold Options.plan at made
    split at made
    · cases made
    · rename_i window
      split at made
      · cases made
      · rename_i penalty
        rw [Bool.not_eq_true, penalty_refused_iff] at penalty
        split at made
        · cases made
        · rename_i storage chosen
          have mode := storage?_eq_some_iff.mp chosen
          split at made
          · cases made
          · rename_i kept
            refine ⟨⟨by omega, penalty.1, penalty.2, ⟨storage, mode⟩, fun wanted => ?_⟩,
              storage, mode, (Except.ok.inj made).symm⟩
            obtain rfl : storage = .table := by simpa [wanted] using kept
            exact mode
  · rintro ⟨usable, storage, mode, rfl⟩
    have penalty := penalty_refused_iff.mpr ⟨usable.penalty_finite, usable.penalty_nonneg⟩
    have kept : ¬(options.wantsPath && storage != .table) = true := by
      rw [Bool.and_eq_true]
      rintro ⟨wanted, other⟩
      have same := mode.symm.trans (usable.path_kept wanted)
      cases storage with
      | table => cases other
      | twoRows | oneRow => cases same
    unfold Options.plan
    rw [if_neg (Int.not_lt.mpr usable.window_usable), if_neg (by rw [penalty]; exact nofun),
      storage?_eq_some_iff.mpr mode]
    exact if_neg kept

theorem Usable.exists_plan (usable : options.Usable) :
    ∃ storage : Storage, options.memoryMode = storage.mode ∧
      options.plan = .ok ⟨options.rule, storage, options.wantsPath, options.norm⟩ := by
  obtain ⟨storage, mode⟩ := usable.mode_known
  exact ⟨storage, mode, plan_eq_ok_iff.mpr ⟨usable, storage, mode, rfl⟩⟩

omit [AdditiveScalar α] in
theorem Usable.chargeable (usable : options.Usable) {n m : Nat} {grid : Fin n → Fin m → α}
    (gridNonneg : ∀ i j, le 0 (grid i j)) : Chargeable grid options :=
  ⟨gridNonneg, usable.penalty_nonneg⟩

end Accepted

theorem usable_standard [MetricScalar α] : (standard : Options α).Usable where
  window_usable := Int.le_refl (-1)
  penalty_finite := MeasuredScalar.finite_zero
  penalty_nonneg := Scalar.zero_le_zero
  mode_known := ⟨.twoRows, rfl⟩
  path_kept := nofun

end Options

/-! ## Series -/

/-- The gaps between the numbers of two series. -/
def gapGrid (a b : Array α) (i : Fin a.size) (j : Fin b.size) : α :=
  Scalar.abs (a.toVector.get i - b.toVector.get j)

theorem series_of_empty {a b : Array α} (empty : ¬(a ≠ #[] ∧ b ≠ #[]))
    (options : Option (Options α)) : series a b options = .error (.of .emptySeries) := by
  rw [not_and_or, not_not, not_not, ← Array.isEmpty_iff, ← Array.isEmpty_iff, ← Bool.or_eq_true]
    at empty
  exact if_pos empty

/-- What is left to do for series with samples under options that can be followed. -/
theorem series_of_planned {a b : Array α} (aSome : a ≠ #[]) (bSome : b ≠ #[])
    {options : Option (Options α)} {plan : Plan α} (planned : Options.resolve options = .ok plan) :
    series a b options = plan.deliver (align (gapGrid a b) plan) := by
  have samples : ¬(a.isEmpty || b.isEmpty) = true := by
    rw [Bool.or_eq_true, Array.isEmpty_iff, Array.isEmpty_iff, not_or]
    exact ⟨aSome, bSome⟩
  unfold series
  rw [if_neg samples, planned]
  rfl

theorem series_eq_ok_iff {a b : Array α} {options : Option (Options α)} {alignment : Alignment α} :
    series a b options = .ok alignment ↔
      a ≠ #[] ∧ b ≠ #[] ∧ ∃ plan, Options.resolve options = .ok plan ∧
        plan.lost (align (gapGrid a b) plan) = false ∧ alignment = align (gapGrid a b) plan := by
  constructor
  · intro aligned
    by_cases samples : a ≠ #[] ∧ b ≠ #[]
    · cases planned : Options.resolve options with
      | error error =>
          unfold series at aligned
          rw [planned] at aligned
          split at aligned <;> cases aligned
      | ok plan =>
          rw [series_of_planned samples.1 samples.2 planned] at aligned
          exact ⟨samples.1, samples.2, plan, rfl, Plan.deliver_eq_ok_iff.mp aligned⟩
    · rw [series_of_empty samples] at aligned
      cases aligned
  · rintro ⟨aSome, bSome, plan, planned, made⟩
    rw [series_of_planned aSome bSome planned]
    exact Plan.deliver_eq_ok_iff.mpr made

/-! ## Trajectories -/

/-- The distances between the samples of two trajectories. -/
def sampleGrid [Distances α] (norm : α) (left right : Array (List α)) (i : Fin left.size)
    (j : Fin right.size) : α :=
  Distances.between norm (left.toVector.get i) (right.toVector.get j)

/-- Trajectories that can be compared: both are given, with the same channels, and have samples. -/
structure Comparable (a b : Operand α) : Prop where
  left_given : a.isAbsent = false
  right_given : b.isAbsent = false
  channels : a.rows = b.rows
  left_samples : a.cols ≠ 0
  right_samples : b.cols ≠ 0

omit [Scalar α] in
theorem Comparable.symm {a b : Operand α} (comparable : Comparable a b) : Comparable b a :=
  ⟨comparable.right_given, comparable.left_given, comparable.channels.symm,
    comparable.right_samples, comparable.left_samples⟩

theorem trajectories_eq_ok_iff [Distances α] {a b : Operand α} {options : Option (Options α)}
    {alignment : Alignment α} :
    trajectories a b options = .ok alignment ↔
      Comparable a b ∧ ∃ plan, Options.resolve options = .ok plan ∧
        Scalar.isNaN plan.norm = false ∧ Scalar.lt plan.norm 1 = false ∧
          ∃ left right, columns a = .ok left ∧ columns b = .ok right ∧
            plan.lost (align (sampleGrid plan.norm left right) plan) = false ∧
              alignment = align (sampleGrid plan.norm left right) plan := by
  unfold trajectories
  by_cases absent : (a.isAbsent || b.isAbsent) = true
  · rw [if_pos absent]
    rw [Bool.or_eq_true] at absent
    constructor
    · nofun
    · rintro ⟨comparable, _⟩
      rw [comparable.left_given, comparable.right_given] at absent
      exact absurd absent (by decide)
  rw [if_neg absent]
  rw [Bool.not_eq_true, Bool.or_eq_false_iff] at absent
  by_cases channels : a.rows ≠ b.rows
  · rw [if_pos channels]
    exact ⟨nofun, fun both => absurd both.1.channels channels⟩
  rw [if_neg channels]
  by_cases empty : a.cols = 0 ∨ b.cols = 0
  · rw [if_pos empty]
    exact ⟨nofun, fun both => (empty.elim both.1.left_samples both.1.right_samples).elim⟩
  rw [if_neg empty, Outcome.bind_eq_ok_iff]
  rw [not_or] at empty
  have comparable : Comparable a b :=
    ⟨absent.1, absent.2, not_not.mp channels, empty.1, empty.2⟩
  constructor
  · rintro ⟨plan, resolved, made⟩
    split at made
    · cases made
    · rename_i normed
      rw [Bool.not_eq_true, Bool.or_eq_false_iff] at normed
      obtain ⟨left, leftRead, made⟩ := Outcome.bind_eq_ok_iff.mp made
      obtain ⟨right, rightRead, made⟩ := Outcome.bind_eq_ok_iff.mp made
      exact ⟨comparable, plan, resolved, normed.1, normed.2, left, right, leftRead, rightRead,
        Plan.deliver_eq_ok_iff.mp made⟩
  · rintro ⟨_, plan, resolved, number, large, left, right, leftRead, rightRead, made⟩
    refine ⟨plan, resolved, ?_⟩
    rw [number, large, leftRead, rightRead]
    exact Plan.deliver_eq_ok_iff.mpr made

/-- Trajectories that can be compared and read, under options with a norm. -/
structure Alignable (a b : Operand α) (options : Options α) : Prop extends Comparable a b where
  usable : options.Usable
  norm_number : Scalar.isNaN options.norm = false
  norm_large : Scalar.lt options.norm 1 = false
  left_read : ∃ left, columns a = .ok left
  right_read : ∃ right, columns b = .ok right

theorem Alignable.symm {a b : Operand α} {options : Options α}
    (alignable : Alignable a b options) : Alignable b a options :=
  ⟨alignable.toComparable.symm, alignable.usable, alignable.norm_number, alignable.norm_large,
    alignable.right_read, alignable.left_read⟩

/-- No other trajectories are aligned. -/
theorem toOption_eq_none_of_not_alignable [Distances α] [AdditiveScalar α] {a b : Operand α}
    {options : Option (Options α)} (refused : ¬Alignable a b (options.getD .standard)) :
    (trajectories a b options).toOption = none := by
  cases aligned : trajectories a b options with
  | error error => rfl
  | ok alignment =>
      obtain ⟨comparable, plan, resolved, number, large, left, right, leftRead, rightRead, -⟩ :=
        trajectories_eq_ok_iff.mp aligned
      obtain ⟨usable, storage, _, rfl⟩ := Options.plan_eq_ok_iff.mp resolved
      exact absurd ⟨comparable, usable, number, large, ⟨left, leftRead⟩, ⟨right, rightRead⟩⟩ refused

omit [Scalar α] in
theorem checkBuffer_eq_ok_iff {channels count : Int} :
    checkBuffer channels count = (.ok () : Outcome α Unit) ↔
      0 ≤ count ∧ (0 ≤ channels ∨ count = 0) ∧ channels.toNat * count.toNat < wordLimit := by
  unfold checkBuffer
  by_cases negative : count < 0 ∨ channels < 0 ∧ count ≠ 0
  · rw [if_pos negative]
    exact ⟨nofun, fun made => by omega⟩
  · rw [if_neg negative]
    by_cases fits : channels.toNat * count.toNat < wordLimit
    · rw [if_pos fits]
      exact ⟨fun _ => ⟨by omega, by omega, fits⟩, fun _ => rfl⟩
    · rw [if_neg fits]
      exact ⟨nofun, fun made => absurd made.2.2 fits⟩

/-- Samples that were read have come out of one buffer, with a place for each sample. -/
theorem exists_samplesOf_of_columns {a : Operand α} {samples : Array (List α)}
    (read : columns a = .ok samples) :
    0 ≤ a.cols ∧ a.rows.toNat * a.cols.toNat < wordLimit ∧
      ∃ buffer : Grid α a.cols.toNat a.rows.toNat, samples = samplesOf buffer := by
  cases a with
  | absent => cases read
  | stored m =>
      obtain ⟨⟨⟩, checked, made⟩ := Outcome.bind_eq_ok_iff.mp read
      obtain ⟨inRange, -, fits⟩ := checkBuffer_eq_ok_iff.mp checked
      exact ⟨inRange, fits, _, (Outcome.pure_eq_ok_iff.mp made).symm⟩
  | view v =>
      obtain ⟨⟨⟩, checked, made⟩ := Outcome.bind_eq_ok_iff.mp read
      obtain ⟨buffer, -, made⟩ := Outcome.bind_eq_ok_iff.mp made
      obtain ⟨inRange, -, fits⟩ := checkBuffer_eq_ok_iff.mp checked
      exact ⟨inRange, fits, buffer, (Outcome.pure_eq_ok_iff.mp made).symm⟩

theorem size_of_columns {a : Operand α} {samples : Array (List α)}
    (read : columns a = .ok samples) : (samples.size : Int) = a.cols := by
  obtain ⟨inRange, -, buffer, rfl⟩ := exists_samplesOf_of_columns read
  rw [samplesOf, Array.size_ofFn]
  exact Int.toNat_of_nonneg inRange

theorem length_of_columns {a : Operand α} {samples : Array (List α)}
    (read : columns a = .ok samples) : ∀ sample ∈ samples, sample.length = a.rows.toNat := by
  intro sample isSample
  obtain ⟨-, -, buffer, rfl⟩ := exists_samplesOf_of_columns read
  obtain ⟨j, rfl⟩ := Array.mem_ofFn.mp isSample
  exact Vector.length_toList

end EchoState.Warping
