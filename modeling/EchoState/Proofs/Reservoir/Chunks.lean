import EchoState.Proofs.Matrix.Representation
import EchoState.Proofs.Reservoir.Samples

/-!
# Simulations in chunks

A sample is held for the step that follows it, so the last sample of a simulation is checked and
never used. A simulation may therefore be cut at any of its samples: the first part ends with that
sample, the second begins with it, from the reservoir that the first part leaves, and the two
records share the column in between.
-/

namespace EchoState

variable {α : Type} [Scalar α] {d : Dims}

/-- A record that is put together from two others: the last column of the first, at the given
position, is the first column of the second. -/
structure Matrix.JoinedAt (seam : Nat) (whole first second : Matrix α) : Prop where
  rows_first : first.rows = whole.rows
  rows_second : second.rows = whole.rows
  cols_first : first.cols = seam + 1
  cols_second : whole.cols = seam + second.cols
  cell_first : whole.rows * whole.cols < wordLimit → ∀ i t : Nat, i < whole.rows → t ≤ seam →
    whole.cell i t = first.cell i t
  cell_second : whole.rows * whole.cols < wordLimit → ∀ i t : Nat, i < whole.rows →
    t < second.cols → whole.cell i (seam + t : Nat) = second.cell i t

namespace Reservoir

variable (r : Reservoir α d)

/-- A cell of a record depends on the state of its column alone. -/
theorem cell_recorded_congr {count count' : Nat} (fits : d.outputs * count < wordLimit)
    (fits' : d.outputs * count' < wordLimit) {states states' : Nat → Vector α d.latents}
    {i t t' : Nat} (row : i < d.outputs) (inside : t < count) (inside' : t' < count')
    (same : states t = states' t') :
    (r.recorded count states).cell i t = (r.recorded count' states').cell i t' := by
  have cell {count t : Nat} (fits : d.outputs * count < wordLimit) (inside : t < count)
      (states : Nat → Vector α d.latents) : (r.recorded count states).cell i t =
        .ok (Scalar.sumWhere d.latents (fun k => !Scalar.isZero (r.readoutWeights.get ⟨i, row⟩ k))
          fun k => r.readoutWeights.get ⟨i, row⟩ k * (states t).get k) := by
    refine (Sheet.cell_natCast _ ⟨i, row⟩ (⟨t, inside⟩ : Fin count)).trans ?_
    rw [Sheet.get_mul fits]
    unfold Sheet.cellSum
    simp only [Sheet.get_whole, Grid.get_ofFn]
  rw [cell fits inside, cell fits' inside', same]

theorem recorded_congr {count : Nat} {states states' : Nat → Vector α d.latents}
    (same : ∀ t < count, states t = states' t) :
    r.recorded count states = r.recorded count states' := by
  have columns : (fun i (t : Fin count) => (states t).get i) =
      fun i (t : Fin count) => (states' t).get i := by
    funext i t
    rw [same t t.isLt]
  unfold recorded
  rw [columns]

/-- A record is joined from the records of its earlier and of its later states. -/
theorem recorded_joinedAt {seam count : Nat} (positive : 0 < count)
    {states before after : Nat → Vector α d.latents}
    (sameBefore : ∀ t ≤ seam, states t = before t)
    (sameAfter : ∀ t < count, states (seam + t) = after t) :
    (r.recorded (seam + count) states).JoinedAt seam (r.recorded (seam + 1) before)
      (r.recorded count after) := by
  have fewer {part : Nat} (atMost : part ≤ seam + count)
      (fits : d.outputs * (seam + count) < wordLimit) : d.outputs * part < wordLimit :=
    Nat.lt_of_le_of_lt (Nat.mul_le_mul_left _ atMost) fits
  refine ⟨rfl, rfl, rfl, rfl, fun fits i t row upTo => ?_, fun fits i t row inside => ?_⟩
  · have inside : t < seam + count := Nat.lt_of_le_of_lt upTo (Nat.lt_add_of_pos_right positive)
    exact r.cell_recorded_congr fits (fewer (Nat.add_le_add_left positive _) fits) row inside
      (Nat.lt_succ_of_le upTo) (sameBefore t upTo)
  · exact r.cell_recorded_congr fits (fewer (Nat.le_add_left ..) fits) row
      (Nat.add_lt_add_left inside _) inside (sameAfter t inside)

section Seam

variable (state : Vector α d.latents) (first : List (Vector α d.inputs))

theorem flowAlong_take_before (rest : List (Vector α d.inputs)) {t : Nat}
    (upTo : t ≤ first.length) :
    r.flowAlong state ((first ++ rest).take t) = r.flowAlong state (first.take t) := by
  rw [List.take_append_of_le_length upTo]

theorem flowAlong_take_after (rest : List (Vector α d.inputs)) (t : Nat) :
    r.flowAlong state ((first ++ rest).take (first.length + t)) =
      r.flowAlong (r.flowAlong state first) (rest.take t) := by
  rw [List.take_length_add_append, flowAlong_append]

end Seam

/-- The reservoir after holding each of the samples for one step. -/
def flowedAlong (samples : List (Vector α d.inputs)) : Reservoir α d :=
  { r with state := r.flowAlong r.state samples }

variable (first : List (Vector α d.inputs)) (x : Vector α d.inputs)

/-- Whether an integration diverges is decided by the samples before the last. -/
theorem diverges_concat_iff :
    r.Diverges (first ++ [x]) ↔
      ∃ t ≤ first.length, ¬AllFinite (r.flowAlong r.state (first.take t)).toArray := by
  unfold Diverges
  rw [List.length_append, List.length_singleton]
  refine exists_congr fun t => ?_
  rw [Nat.lt_succ_iff]
  exact and_congr_right fun upTo => by rw [flowAlong_take_before r _ first _ upTo]

variable {r first x} in
theorem Diverges.exists_first_of_concat (diverges : r.Diverges (first ++ [x])) :
    ∃ t i, t ≤ first.length ∧
      (∀ s < t, AllFinite (r.flowAlong r.state (first.take s)).toArray) ∧
      ((r.flowAlong r.state (first.take t)).findFinIdx? fun value =>
        !Scalar.finite value) = some i := by
  obtain ⟨t, i, inside, earlier, found⟩ := diverges.exists_first
  rw [List.length_append, List.length_singleton] at inside
  have before {s : Nat} (upTo : s ≤ t) := r.flowAlong_take_before r.state first [x]
    (Nat.le_trans upTo (Nat.le_of_lt_succ inside))
  refine ⟨t, i, Nat.le_of_lt_succ inside, fun s less => ?_, ?_⟩
  · rw [← before (Nat.le_of_lt less)]
    exact earlier s less
  · rwa [before (Nat.le_refl t)] at found

/-- An integration diverges exactly when one of its chunks does. -/
theorem diverges_append_iff (rest : List (Vector α d.inputs)) :
    r.Diverges (first ++ x :: rest) ↔
      r.Diverges (first ++ [x]) ∨ (r.flowedAlong first).Diverges (x :: rest) := by
  rw [diverges_concat_iff]
  unfold Diverges
  rw [List.length_append]
  constructor
  · rintro ⟨t, inside, notFinite⟩
    rcases Nat.lt_or_ge first.length t with beyond | upTo
    · obtain ⟨s, rfl⟩ := Nat.exists_eq_add_of_le (Nat.le_of_lt beyond)
      rw [flowAlong_take_after] at notFinite
      exact Or.inr ⟨s, Nat.lt_of_add_lt_add_left inside, notFinite⟩
    · rw [flowAlong_take_before r _ first _ upTo] at notFinite
      exact Or.inl ⟨t, upTo, notFinite⟩
  · rintro (⟨t, upTo, notFinite⟩ | ⟨s, inside, notFinite⟩)
    · refine ⟨t, by simp only [List.length_cons]; omega, ?_⟩
      rwa [flowAlong_take_before r _ first _ upTo]
    · refine ⟨first.length + s, Nat.add_lt_add_left inside _, ?_⟩
      rw [flowAlong_take_after]
      exact notFinite

/-! ## Refused samples -/

/-- Either all inputs are finite samples, or there is a first one that is refused. -/
theorem samples_or_refused (inputs : List (Given α)) (n : Nat) :
    (∃ samples : List (Vector α n), (inputs = samples.map fun x => some x.toArray) ∧
        ∀ x ∈ samples, AllFinite x.toArray) ∨
      ∃ before given after error, inputs = before ++ given :: after ∧
        (∀ y ∈ before, ∃ v : Vector α n, y.ofFinite n = .ok v) ∧
        given.ofFinite n = .error error := by
  induction inputs with
  | nil => exact Or.inl ⟨[], rfl, nofun⟩
  | cons given rest ih =>
      cases accepted : given.ofFinite n with
      | error error => exact Or.inr ⟨[], given, rest, error, rfl, nofun, accepted⟩
      | ok v =>
          obtain ⟨rfl, finite⟩ := Given.ofFinite_eq_ok_iff.mp accepted
          rcases ih with ⟨samples, rfl, allFinite⟩ | ⟨before, given, after, error, rfl, ok, refused⟩
          · exact Or.inl ⟨v :: samples, rfl, List.forall_mem_cons.mpr ⟨finite, allFinite⟩⟩
          · exact Or.inr ⟨some v.toArray :: before, given, after, error, rfl,
              List.forall_mem_cons.mpr ⟨⟨v, accepted⟩, ok⟩, refused⟩

theorem checkSamples_of_refused {before after : List (Given α)} {given : Given α} {n : Nat}
    {error : Error α} (accepted : ∀ y ∈ before, ∃ v : Vector α n, y.ofFinite n = .ok v)
    (refused : given.ofFinite n = .error error) :
    checkSamples (counted (before ++ given :: after)) n =
      .error (error.within (.sample before.length)) := by
  have inside : before.length < (before ++ given :: after).length := by simp
  have entry (t : Fin (before ++ given :: after).length) :
      (counted (before ++ given :: after)).get t = (before ++ given :: after)[t] := rfl
  refine collect_eq_error (i := ⟨before.length, inside⟩) ?_ fun t earlier => ?_
  · rw [entry]
    simp [refused]
  · have listed : (before ++ given :: after)[t] ∈ before := by
      rw [Fin.getElem_fin, List.getElem_append_left earlier]
      exact List.getElem_mem earlier
    obtain ⟨v, ok⟩ := accepted _ listed
    rw [entry, ok]
    exact ⟨v, rfl⟩

end Reservoir

namespace Machine

variable (m : Machine α d)

theorem simulate_of_refused {before after : List (Given α)} {given : Given α} {error : Error α}
    (accepted : ∀ y ∈ before, ∃ v : Vector α d.inputs, y.ofFinite d.inputs = .ok v)
    (refused : given.ofFinite d.inputs = .error error) :
    m.simulate (before ++ given :: after) =
      (.error ((error.within (.sample before.length)).within (.task .simulate)), m) := by
  unfold simulate
  rw [Reservoir.checkSamples_of_refused accepted refused]

section Samples

variable {first : List (Vector α d.inputs)} {x : Vector α d.inputs}

omit [Scalar α] in
theorem given_concat : first.map (fun y => some y.toArray) ++ [some x.toArray] =
    (first ++ [x]).map fun y => some y.toArray := by
  rw [List.map_append, List.map_singleton]

variable (finite : ∀ y ∈ first ++ [x], AllFinite y.toArray)

include finite

theorem simulate_concat_of_stays (stays : ¬m.reservoir.Diverges (first ++ [x])) :
    let simulated := m.simulate (first.map (fun y => some y.toArray) ++ [some x.toArray])
    simulated.1 = .ok (m.reservoir.recorded (first.length + 1) fun t =>
        m.reservoir.flowAlong m.reservoir.state (first.take t)) ∧
      simulated.2.reservoir = m.reservoir.flowedAlong first := by
  obtain ⟨answered, left⟩ := simulate_of_not_diverges finite given_concat stays
  rw [List.length_append, List.length_singleton] at answered left
  refine ⟨answered.trans (congrArg Except.ok ?_), left.trans ?_⟩
  · exact m.reservoir.recorded_congr fun t inside =>
      m.reservoir.flowAlong_take_before _ first _ (Nat.le_of_lt_succ inside)
  · rw [Nat.add_sub_cancel, m.reservoir.flowAlong_take_before _ first _ (Nat.le_refl _),
      List.take_length]
    rfl

/-- A simulation reports the first state that is not finite, up to the one before its last
sample. -/
theorem simulate_concat_of_first_nonFinite {t : Nat} {i : Fin d.latents} (upTo : t ≤ first.length)
    (earlier : ∀ s < t,
      AllFinite (m.reservoir.flowAlong m.reservoir.state (first.take s)).toArray)
    (found : ((m.reservoir.flowAlong m.reservoir.state (first.take t)).findFinIdx? fun value =>
      !Scalar.finite value) = some i) :
    let simulated := m.simulate (first.map (fun y => some y.toArray) ++ [some x.toArray])
    simulated.1 = .error ⟨[.task .simulate, .time t, .cell .set i t], .notFinite⟩ ∧
      simulated.2.reservoir = m.reservoir := by
  have before {s : Nat} (upTo : s ≤ first.length) :=
    m.reservoir.flowAlong_take_before m.reservoir.state first [x] upTo
  refine simulate_of_first_nonFinite finite given_concat ?_ (fun s less => ?_) ?_
  · rw [List.length_append, List.length_singleton]
    exact Nat.lt_succ_of_le upTo
  · rw [before (Nat.le_of_lt (Nat.lt_of_lt_of_le less upTo))]
    exact earlier s less
  · rw [before upTo]
    exact found

end Samples

/-- A simulation that succeeds is joined from two that meet at any of its samples. -/
theorem simulate_joined {before after : List (Given α)} {middle : Given α}
    (succeeds : ∃ whole, (m.simulate (before ++ middle :: after)).1 = .ok whole) :
    let long := m.simulate (before ++ middle :: after)
    let start := m.simulate (before ++ [middle])
    let onward := start.2.simulate (middle :: after)
    ∃ whole first second, long.1 = .ok whole ∧ start.1 = .ok first ∧ onward.1 = .ok second ∧
      whole.JoinedAt before.length first second ∧ long.2.reservoir = onward.2.reservoir := by
  obtain ⟨samples, given, finite, stays⟩ := exists_simulate_iff.mp succeeds
  obtain ⟨first, later, rfl, rfl, givenLater⟩ := List.append_eq_map_iff.mp given
  obtain ⟨x, rest, rfl, rfl, rfl⟩ := List.map_eq_cons_iff.mp givenLater
  have parts := m.reservoir.diverges_append_iff first x rest
  obtain ⟨staysBefore, staysAfter⟩ := not_or.mp ((not_congr parts).mp stays)
  obtain ⟨finiteFirst, finiteRest⟩ := List.forall_mem_append.mp finite
  have finiteBefore : ∀ y ∈ first ++ [x], AllFinite y.toArray :=
    List.forall_mem_append.mpr ⟨finiteFirst,
      List.forall_mem_singleton.mpr (finiteRest x (List.mem_cons_self ..))⟩
  obtain ⟨answered, left⟩ := simulate_of_not_diverges finite given stays
  obtain ⟨answeredBefore, leftBefore⟩ := m.simulate_concat_of_stays finiteBefore staysBefore
  rw [← leftBefore] at staysAfter
  obtain ⟨answeredAfter, leftAfter⟩ := simulate_of_not_diverges finiteRest rfl staysAfter
  rw [leftBefore] at answeredAfter leftAfter
  rw [List.length_append] at answered left
  rw [List.length_map]
  refine ⟨_, _, _, answered, answeredBefore, answeredAfter, ?_, left.trans ?_⟩
  · exact m.reservoir.recorded_joinedAt (Nat.succ_pos _)
      (fun t => m.reservoir.flowAlong_take_before _ first _)
      fun t _ => m.reservoir.flowAlong_take_after _ first _ t
  · rw [List.length_cons, ← Nat.add_assoc, Nat.add_sub_cancel, m.reservoir.flowAlong_take_after]
    exact leftAfter.symm

/-- Where both parts of a simulation succeed, the whole does. -/
theorem simulate_of_parts {before after : List (Given α)} {middle : Given α}
    (start : ∃ first, (m.simulate (before ++ [middle])).1 = .ok first)
    (onward : ∃ second,
      ((m.simulate (before ++ [middle])).2.simulate (middle :: after)).1 = .ok second) :
    ∃ whole, (m.simulate (before ++ middle :: after)).1 = .ok whole := by
  obtain ⟨samples, given, finite, staysBefore⟩ := exists_simulate_iff.mp start
  obtain ⟨first, last, rfl, rfl, givenLast⟩ := List.append_eq_map_iff.mp given
  obtain ⟨x, none, rfl, rfl, isNone⟩ := List.map_eq_cons_iff.mp givenLast
  obtain rfl := List.map_eq_nil_iff.mp isNone
  obtain ⟨samples, givenAfter, finiteAfter, staysAfter⟩ := exists_simulate_iff.mp onward
  obtain ⟨y, rest, rfl, sameSample, rfl⟩ := List.map_eq_cons_iff.mp givenAfter.symm
  obtain rfl : y = x := Vector.toArray_inj.mp (Option.some.inj sameSample)
  rw [(m.simulate_concat_of_stays finite staysBefore).2] at staysAfter
  refine exists_simulate_iff.mpr ⟨first ++ y :: rest, ?_, ?_, ?_⟩
  · rw [List.map_append, List.map_cons]
  · exact List.forall_mem_append.mpr ⟨(List.forall_mem_append.mp finite).1, finiteAfter⟩
  · rw [Reservoir.diverges_append_iff]
    exact not_or.mpr ⟨staysBefore, staysAfter⟩

/-- Of its last sample, a simulation only looks at whether it is accepted. -/
theorem simulate_concat_congr (inputs : List (Given α)) {last last' : Given α}
    {v v' : Vector α d.inputs} (accepted : last.ofFinite d.inputs = .ok v)
    (accepted' : last'.ofFinite d.inputs = .ok v') :
    (m.simulate (inputs ++ [last])).1 = (m.simulate (inputs ++ [last'])).1 ∧
      (m.simulate (inputs ++ [last])).2.reservoir =
        (m.simulate (inputs ++ [last'])).2.reservoir := by
  rcases Reservoir.samples_or_refused inputs d.inputs with
    ⟨first, rfl, finite⟩ | ⟨before, given, after, error, rfl, ok, refused⟩
  · obtain ⟨rfl, vFinite⟩ := Given.ofFinite_eq_ok_iff.mp accepted
    obtain ⟨rfl, vFinite'⟩ := Given.ofFinite_eq_ok_iff.mp accepted'
    have allFinite {w : Vector α d.inputs} (wFinite : AllFinite w.toArray) :
        ∀ y ∈ first ++ [w], AllFinite y.toArray :=
      List.forall_mem_append.mpr ⟨finite, List.forall_mem_singleton.mpr wFinite⟩
    by_cases diverges : m.reservoir.Diverges (first ++ [v])
    · obtain ⟨t, i, upTo, earlier, found⟩ := diverges.exists_first_of_concat
      have fails {w : Vector α d.inputs} (wFinite : AllFinite w.toArray) :=
        m.simulate_concat_of_first_nonFinite (allFinite wFinite) upTo earlier found
      exact ⟨(fails vFinite).1.trans (fails vFinite').1.symm,
        (fails vFinite).2.trans (fails vFinite').2.symm⟩
    · have stays : ¬m.reservoir.Diverges (first ++ [v']) := by
        rwa [Reservoir.diverges_concat_iff] at diverges ⊢
      obtain ⟨answered, left⟩ := m.simulate_concat_of_stays (allFinite vFinite) diverges
      obtain ⟨answered', left'⟩ := m.simulate_concat_of_stays (allFinite vFinite') stays
      exact ⟨answered.trans answered'.symm, left.trans left'.symm⟩
  · rw [List.append_assoc, List.append_assoc, List.cons_append, List.cons_append,
      m.simulate_of_refused ok refused, m.simulate_of_refused ok refused]
    exact ⟨rfl, rfl⟩

/-- A record has a row for each output and a column for each sample. -/
theorem shape_of_simulate {inputs : List (Given α)} {matrix : Matrix α}
    (ok : (m.simulate inputs).1 = .ok matrix) :
    matrix.rows = d.outputs ∧ matrix.cols = inputs.length := by
  rw [(m.simulate_eq inputs).1] at ok
  cases simulated : m.reservoir.simulate inputs with
  | error error =>
      rw [simulated] at ok
      cases ok
  | ok result =>
      rw [simulated] at ok
      cases ok
      exact ⟨rfl, rfl⟩

/-- A simulation is made in chunks: it succeeds exactly when the part that ends with a sample
succeeds and the part that begins with this sample does so from the reservoir that the first part
leaves. Its record is then joined from theirs, and the same reservoir is left. Of its last sample, a
simulation only looks at whether it is accepted. -/
theorem simulate_in_chunks (before after : List (Given α)) (middle : Given α) :
    let long := m.simulate (before ++ middle :: after)
    let start := m.simulate (before ++ [middle])
    let onward := start.2.simulate (middle :: after)
    ((∃ whole, long.1 = .ok whole) ↔
      (∃ first, start.1 = .ok first) ∧ ∃ second, onward.1 = .ok second) ∧
    (∀ whole first second, long.1 = .ok whole → start.1 = .ok first → onward.1 = .ok second →
      whole.rows = d.outputs ∧ whole.cols = (before ++ middle :: after).length ∧
        whole.JoinedAt before.length first second ∧
        long.2.reservoir = onward.2.reservoir) ∧
    ∀ (last last' : Given α) (v v' : Vector α d.inputs),
      last.ofFinite d.inputs = .ok v → last'.ofFinite d.inputs = .ok v' →
      (m.simulate (before ++ [last])).1 = (m.simulate (before ++ [last'])).1 ∧
        (m.simulate (before ++ [last])).2.reservoir =
          (m.simulate (before ++ [last'])).2.reservoir := by
  intro long start onward
  refine ⟨⟨fun succeeds => ?_, fun ⟨first, second⟩ => m.simulate_of_parts first second⟩, ?_, ?_⟩
  · obtain ⟨_, first, second, _, started, followed, _⟩ := m.simulate_joined succeeds
    exact ⟨⟨first, started⟩, ⟨second, followed⟩⟩
  · intro whole first second ok started followed
    obtain ⟨rows, cols⟩ := m.shape_of_simulate ok
    obtain ⟨_, _, _, ok', started', followed', joined, same⟩ := m.simulate_joined ⟨whole, ok⟩
    obtain rfl := Except.ok.inj (ok.symm.trans ok')
    obtain rfl := Except.ok.inj (started.symm.trans started')
    obtain rfl := Except.ok.inj (followed.symm.trans followed')
    exact ⟨rows, cols, joined, same⟩
  · intro last last' v v' accepted accepted'
    exact m.simulate_concat_congr before accepted accepted'

/-- Three samples in binary64, cut at the one in the middle. The first drives the state up, the
second drives it down, and the third is never used. -/
theorem simulate_in_chunks_binary64 :
    let weights : Operand Float := .stored ⟨1, 1, .whole ⟨#v[50]⟩⟩
    let m := ((ofReservoir (Reservoir.blank ⟨1, 1, 1⟩ Settings.standard)).performAll 1
      [.assignInputWeights weights, .assignReadoutWeights weights]).2
    let sample : Float → Given Float := fun x => some #[x]
    let long := m.simulate ([sample 1] ++ sample (-2) :: [sample 3])
    let start := m.simulate ([sample 1] ++ [sample (-2)])
    let onward := start.2.simulate (sample (-2) :: [sample 3])
    (∃ whole first second, long.1 = .ok whole ∧ start.1 = .ok first ∧ onward.1 = .ok second ∧
        whole.JoinedAt 1 first second ∧ long.2.reservoir = onward.2.reservoir) ∧
      start.1 = (m.simulate ([sample 1] ++ [sample 7])).1 := by
  intro weights m sample
  -- the runs are written out on both sides, so that comparing them never runs one
  dsimp only
  have succeeds : ∃ whole, (m.simulate ([sample 1] ++ sample (-2) :: [sample 3])).1 = .ok whole :=
    Outcome.isOk_iff.mp (by decide +kernel)
  have accepted (x : Float) (finite : Scalar.finite x) : (sample x).ofFinite 1 = .ok #v[x] :=
    Given.ofFinite_eq_ok_iff.mpr ⟨rfl, (allFinite_vector_iff #v[x]).mpr (by simpa using finite)⟩
  obtain ⟨parts, joined, last⟩ := m.simulate_in_chunks [sample 1] [sample 3] (sample (-2))
  dsimp only at parts joined
  constructor
  · obtain ⟨⟨first, started⟩, ⟨second, followed⟩⟩ := parts.mp succeeds
    obtain ⟨whole, ok⟩ := succeeds
    obtain ⟨_, _, together⟩ := joined whole first second ok started followed
    exact ⟨whole, first, second, ok, started, followed, together⟩
  · exact (last _ _ _ _ (accepted (-2) (by decide +kernel)) (accepted 7 (by decide +kernel))).1

end Machine

end EchoState
