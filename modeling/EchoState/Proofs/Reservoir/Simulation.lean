import EchoState.Proofs.Matrix.Product
import EchoState.Proofs.Reservoir.Buffers
import EchoState.Proofs.Reservoir.Invariant

/-!
# Simulations and single steps

A simulation does what single checked steps do, one for each sample but the last, with a readout
before each sample. The two take different ways there: a simulation checks a state when it records
it and reads all states out by one matrix product, a single step checks the state it has reached and
the readout is a product with a vector. They agree to the last bit.
-/

namespace EchoState

variable {α : Type} [Scalar α] {d : Dims}

namespace Reservoir

theorem checkSamples_eq_ok_iff {count n : Nat} {given : Vector (Given α) count}
    {samples : Vector (Vector α n) count} :
    checkSamples given n = .ok samples ↔
      ∀ t : Fin count, (given.get t).ofFinite n = .ok (samples.get t) := by
  unfold checkSamples
  rw [collect_eq_ok_iff]
  exact forall_congr' fun t => Outcome.within_eq_ok_iff

theorem exists_samples {inputs : List (Given α)} {n : Nat}
    (accepted : ∀ x ∈ inputs, ∃ v : Vector α n, x.ofFinite n = .ok v) :
    ∃ samples, checkSamples (counted inputs) n = .ok samples := by
  have each (t : Fin inputs.length) :
      ∃ v : Vector α n, ((counted inputs).get t).ofFinite n = .ok v :=
    accepted _ (List.getElem_mem t.isLt)
  choose sample isSample using each
  refine ⟨Vector.ofFn sample, checkSamples_eq_ok_iff.mpr fun t => ?_⟩
  rw [isSample]
  simp

theorem StageInputs.check_held {x : Given α} {n : Nat} {v : Vector α n}
    (accepted : x.ofFinite n = .ok v) : (StageInputs.held x).check n = .ok (.held v) := by
  unfold StageInputs.check StageInputs.held
  simp only [accepted]
  rfl

/-- A step that holds an accepted sample is refused exactly when it leaves the finite numbers. -/
theorem propagate_held {r : Reservoir α d} {x : Given α} {v : Vector α d.inputs}
    (accepted : x.ofFinite d.inputs = .ok v) :
    (AllFinite (r.flow r.state (.held v)).toArray →
        r.propagate (.held x) = .ok { r with state := r.flow r.state (.held v) }) ∧
      (¬AllFinite (r.flow r.state (.held v)).toArray →
        ∃ error, r.propagate (.held x) = .error error) := by
  unfold propagate
  rw [StageInputs.check_held accepted, Outcome.ok_bind]
  dsimp only
  constructor
  · intro finite
    rw [checkFiniteVector_eq_ok_iff.mpr finite]
    rfl
  · intro notFinite
    cases checked : checkFiniteVector (r.flow r.state (.held v)).toArray with
    | ok done => exact absurd (checkFiniteVector_eq_ok_iff.mp checked) notFinite
    | error error => exact ⟨_, rfl⟩

end Reservoir

namespace Machine

/-- The machine after a checked step with each of the inputs, whether it succeeds or not. -/
def driven (m : Machine α d) (inputs : List (Given α)) : Machine α d :=
  inputs.foldl (fun machine x => (machine.propagate (.held x)).2) m

/-- The checked step with one of the inputs succeeds, after those with the inputs before it. -/
def StepSucceeds (m : Machine α d) (inputs : List (Given α)) (t : Nat) : Prop :=
  ∃ x, inputs[t]? = some x ∧ ((m.driven (inputs.take t)).propagate (.held x)).1 = .ok ()

theorem driven_take_succ (m : Machine α d) {inputs : List (Given α)} {t : Nat}
    (inside : t < inputs.length) :
    m.driven (inputs.take (t + 1)) =
      ((m.driven (inputs.take t)).propagate (.held inputs[t])).2 := by
  unfold driven
  rw [List.take_add_one, List.getElem?_eq_getElem inside, Option.toList_some, List.foldl_append]
  rfl

section Samples

variable {m : Machine α d} {inputs : List (Given α)}
  {samples : Vector (Vector α d.inputs) inputs.length}

/-- Where the earlier states are finite, single steps reach the state before a sample, and the next
one succeeds exactly when the state after the sample is finite. -/
theorem propagate_driven
    (accepted : Reservoir.checkSamples (Reservoir.counted inputs) d.inputs = .ok samples)
    {t : Nat} (inside : t < inputs.length)
    (reached : (m.driven (inputs.take t)).reservoir =
      { m.reservoir with state := m.reservoir.stateBefore samples t }) :
    (m.StepSucceeds inputs t ↔ AllFinite (m.reservoir.stateBefore samples (t + 1)).toArray) ∧
      (AllFinite (m.reservoir.stateBefore samples (t + 1)).toArray →
        (m.driven (inputs.take (t + 1))).reservoir =
          { m.reservoir with state := m.reservoir.stateBefore samples (t + 1) }) := by
  have sample : (inputs[t]).ofFinite d.inputs = .ok samples[t] :=
    Reservoir.checkSamples_eq_ok_iff.mp accepted ⟨t, inside⟩
  obtain ⟨answered, left⟩ := (m.driven (inputs.take t)).propagate_eq (.held inputs[t])
  obtain ⟨succeeds, fails⟩ := Reservoir.propagate_held
    (r := (m.driven (inputs.take t)).reservoir) sample
  rw [reached] at succeeds fails
  rw [driven_take_succ m inside, left, reached, m.reservoir.stateBefore_succ _ _ inside]
  refine ⟨⟨?_, ?_⟩, ?_⟩
  · rintro ⟨x, isInput, ok⟩
    obtain rfl : inputs[t] = x := by simpa [inside] using isInput
    by_contra notFinite
    obtain ⟨error, failed⟩ := fails notFinite
    rw [answered, reached, failed] at ok
    cases ok
  · intro finite
    refine ⟨inputs[t], List.getElem?_eq_getElem inside, ?_⟩
    rw [answered, reached, succeeds finite]
    rfl
  · intro finite
    rw [succeeds finite]
    rfl

/-- Single steps follow the states before the samples as long as these are finite. -/
theorem reservoir_driven
    (accepted : Reservoir.checkSamples (Reservoir.counted inputs) d.inputs = .ok samples)
    {t : Nat} (atMost : t ≤ inputs.length)
    (finite : ∀ s ≤ t, AllFinite (m.reservoir.stateBefore samples s).toArray) :
    (m.driven (inputs.take t)).reservoir =
      { m.reservoir with state := m.reservoir.stateBefore samples t } := by
  induction t with
  | zero => rfl
  | succ t ih =>
      have reached := ih (by omega) fun s upTo => finite s (by omega)
      exact (propagate_driven accepted atMost reached).2 (finite (t + 1) (Nat.le_refl _))

/-- The single steps before a sample succeed exactly when all states up to it are finite. -/
theorem steps_succeed_iff
    (accepted : Reservoir.checkSamples (Reservoir.counted inputs) d.inputs = .ok samples)
    (begins : AllFinite m.reservoir.state.toArray) {t : Nat} (atMost : t ≤ inputs.length) :
    (∀ s < t, m.StepSucceeds inputs s) ↔
      ∀ s ≤ t, AllFinite (m.reservoir.stateBefore samples s).toArray := by
  induction t with
  | zero =>
      refine ⟨fun _ s upTo => ?_, fun _ s none => absurd none (Nat.not_lt_zero s)⟩
      obtain rfl : s = 0 := by omega
      exact begins
  | succ t ih =>
      have before := ih (by omega)
      have next (finite : ∀ s ≤ t, AllFinite (m.reservoir.stateBefore samples s).toArray) :=
        (propagate_driven accepted atMost (reservoir_driven accepted (by omega) finite)).1
      constructor
      · intro succeed s upTo
        have finite := before.mp fun s earlier => succeed s (by omega)
        rcases Nat.lt_or_eq_of_le upTo with earlier | rfl
        · exact finite s (by omega)
        · exact (next finite).mp (succeed t (Nat.lt_succ_self t))
      · intro finite s upTo
        have earlierFinite : ∀ s ≤ t, AllFinite (m.reservoir.stateBefore samples s).toArray :=
          fun s upTo => finite s (by omega)
        rcases Nat.lt_succ_iff_lt_or_eq.mp upTo with earlier | rfl
        · exact before.mpr earlierFinite s earlier
        · exact (next earlierFinite).mpr (finite (s + 1) (Nat.le_refl _))

variable (samples) in
/-- Either every state before a sample is finite, or there is a first one that is not, and in it a
first such entry. -/
theorem finite_or_first_nonFinite (begins : AllFinite m.reservoir.state.toArray) :
    (∀ t < inputs.length, AllFinite (m.reservoir.stateBefore samples t).toArray) ∨
      ∃ t i, t + 1 < inputs.length ∧
        (∀ s ≤ t, AllFinite (m.reservoir.stateBefore samples s).toArray) ∧
        ((m.reservoir.stateBefore samples (t + 1)).findFinIdx? fun value =>
          !Scalar.finite value) = some i := by
  by_cases all : ∀ t < inputs.length, AllFinite (m.reservoir.stateBefore samples t).toArray
  · exact Or.inl all
  · push Not at all
    have later : Nat.find all ≠ 0 := by
      intro first
      have notFinite := (Nat.find_spec all).2
      rw [first] at notFinite
      exact notFinite begins
    obtain ⟨t, first⟩ := Nat.exists_eq_succ_of_ne_zero later
    obtain ⟨inside, notFinite⟩ := Nat.find_spec all
    rw [first] at inside notFinite
    have finite (s : Nat) (upTo : s ≤ t) :
        AllFinite (m.reservoir.stateBefore samples s).toArray := by
      by_contra notFinite
      exact Nat.find_min all (by omega) ⟨by omega, notFinite⟩
    cases found : (m.reservoir.stateBefore samples (t + 1)).findFinIdx? fun value =>
        !Scalar.finite value with
    | none => exact absurd (allFinite_of_findFinIdx?_eq_none found) notFinite
    | some i => exact Or.inr ⟨t, i, inside, finite, found⟩

end Samples

section Main

variable [MeasuredScalar α] [SignedZeroScalar α]

/-- A column of the readout of recorded states is the readout of the state: the matrix product
leaves out zero weights, the product with a vector leaves out zero entries of the state. -/
theorem get_readout_record {settings : Settings α} {r : Reservoir α d}
    (wellFormed : r.WellFormed settings) {samples : Nat} (fits : d.outputs * samples < wordLimit)
    (states : Nat → Vector α d.latents) (finite : ∀ t < samples, AllFinite (states t).toArray)
    (i : Fin d.outputs) (t : Fin samples) :
    (r.readoutWeights.mul (.whole (.ofFn fun i (t : Fin samples) => (states t).get i))).get i t =
      ({ r with state := states t } : Reservoir α d).readout.get i := by
  have column (k : Fin d.latents) : (Sheet.whole (Grid.ofFn fun i (t : Fin samples) =>
      (states t).get i)).get k t = (states t).get k := by simp
  have weights := Sheet.finite_get MeasuredScalar.finite_zero wellFormed.readoutWeights_finite i
  have entries := (allFinite_vector_iff (states t)).mp (finite t t.isLt)
  rw [Sheet.get_mul fits, Sheet.cellSum_eq_rowDot column weights entries]
  exact (Sheet.get_mulVec _ _ i).symm

/-- A simulation of a reservoir in use, with a finite state and at least one sample, all accepted
and no more than can be recorded, is the same as single steps: it succeeds exactly when each of the
steps between the samples does, and then leaves what these steps lead to, and each column of its
result is the readout after the steps before its sample; otherwise it reports the time after the
first step that fails, and the first entry that is not finite there. -/
theorem simulate_eq_steps [Distances α] {settings : Settings α} {r : AnyReservoir α}
    (constructed : Constructed settings r) (bound : Nat) (operations : List (Operation α)) :
    let m := ((ofReservoir r.reservoir).performAll bound operations).2
    AllFinite m.reservoir.state.toArray → ∀ inputs : List (Given α), inputs ≠ [] →
    (∀ x ∈ inputs, ∃ v : Vector α r.dims.inputs, x.ofFinite r.dims.inputs = .ok v) →
    r.dims.Recordable inputs.length →
      ((∃ matrix, (m.simulate inputs).1 = .ok matrix) ↔
        ∀ t, t + 1 < inputs.length → m.StepSucceeds inputs t) ∧
      (∀ matrix, (m.simulate inputs).1 = .ok matrix →
        (m.simulate inputs).2.reservoir =
          (m.driven (inputs.take (inputs.length - 1))).reservoir ∧
        ∃ sheet : Sheet α r.dims.outputs inputs.length,
          matrix = ⟨r.dims.outputs, inputs.length, sheet⟩ ∧
          ∀ i (t : Fin inputs.length),
            sheet.get i t = (m.driven (inputs.take t)).reservoir.readout.get i) ∧
      ∀ error, (m.simulate inputs).1 = .error error →
        ∃ t i, t + 1 < inputs.length ∧ (∀ s < t, m.StepSucceeds inputs s) ∧
          ¬m.StepSucceeds inputs t ∧
          error = ⟨[.task .simulate, .time (t + 1 : Nat), .cell .set i (t + 1 : Nat)],
            .notFinite⟩ := by
  intro m begins inputs notEmpty acceptedEach recordable
  have wellFormed : m.reservoir.WellFormed settings :=
    (Reservoir.WellFormed.origin constructed.origin).trace
      (Recorded.trace_performAll bound r.reservoir operations)
  obtain ⟨samples, accepted⟩ := Reservoir.exists_samples acceptedEach
  obtain ⟨answered, left⟩ := m.simulate_eq inputs
  have atLeastOne : 0 < inputs.length := List.length_pos_iff.mpr notEmpty
  rcases finite_or_first_nonFinite samples begins with
    finite | ⟨t, i, inside, finite, found⟩
  · rw [Reservoir.simulate_of_finite accepted finite] at answered left
    have stepsSucceed := (steps_succeed_iff accepted begins (Nat.sub_le inputs.length 1)).mpr
      fun s upTo => finite s (by omega)
    have reached (t : Nat) (inside : t < inputs.length) := reservoir_driven (m := m) accepted
      (Nat.le_of_lt inside) fun s upTo => finite s (by omega)
    refine ⟨?_, ?_, ?_⟩
    · exact iff_of_true ⟨_, answered⟩ fun t inside => stepsSucceed t (by omega)
    · intro matrix ok
      refine ⟨?_, _, Except.ok.inj (ok.symm.trans answered), ?_⟩
      · rw [left, reached _ (by omega)]
        rfl
      · intro i t
        rw [get_readout_record wellFormed recordable.readouts _ finite, reached t t.isLt]
    · intro error failed
      rw [answered] at failed
      cases failed
  · have upTo (s : Nat) (earlier : s < t + 1) := finite s (Nat.le_of_lt_succ earlier)
    rw [Reservoir.simulate_of_nonFinite accepted inside upTo found] at answered
    have stepsSucceed := (steps_succeed_iff accepted begins (by omega)).mpr finite
    have reached := reservoir_driven (m := m) accepted (by omega) finite
    have fails : ¬m.StepSucceeds inputs t := by
      rw [(propagate_driven accepted (by omega) reached).1]
      intro allFinite
      rw [Reservoir.findFinIdx?_eq_none_of_allFinite allFinite] at found
      cases found
    refine ⟨?_, ?_, ?_⟩
    · refine iff_of_false ?_ fun every => fails (every t inside)
      rintro ⟨matrix, ok⟩
      rw [answered] at ok
      cases ok
    · intro matrix ok
      rw [answered] at ok
      cases ok
    · intro error failed
      exact ⟨t, i, inside, stepsSucceed, fails, Except.error.inj (failed.symm.trans answered)⟩

/-- A fast integration in binary64 that reaches its second sample and diverges before its third. -/
theorem simulate_eq_steps_binary64 :
    let settings : Settings Float := { Settings.standard with timescale := 1, gamma := 1e6 }
    let weights : Operand Float := .stored ⟨1, 1, .whole ⟨#v[2]⟩⟩
    let m := ((ofReservoir (Reservoir.blank ⟨0, 1, 1⟩ settings)).performAll 1
      [.assignReadoutWeights weights, .assignState (some #[1e270])]).2
    let samples : Nat → List (Given Float) := fun count => List.replicate count (some #[])
    (∃ matrix, (m.simulate (samples 2)).1 = .ok matrix ∧
        (m.simulate (samples 2)).2.reservoir = (m.driven (samples 1)).reservoir) ∧
      ∃ t i, t + 1 < 4 ∧ (∀ s < t, m.StepSucceeds (samples 4) s) ∧
        ¬m.StepSucceeds (samples 4) t ∧ (m.simulate (samples 4)).1 =
          .error ⟨[.task .simulate, .time (t + 1 : Nat), .cell .set i (t + 1 : Nat)],
            .notFinite⟩ := by
  intro settings weights m samples
  have constructed : Constructed settings ⟨⟨0, 1, 1⟩, Reservoir.blank ⟨0, 1, 1⟩ settings⟩ :=
    .create 0 1 1 rfl
  have begins : AllFinite m.reservoir.state.toArray := by
    rw [allFinite_vector_iff]
    decide +kernel
  have accepted (count : Nat) : ∀ x ∈ samples count,
      ∃ v : Vector Float 0, x.ofFinite 0 = .ok v := by
    intro x isSample
    rw [List.eq_of_mem_replicate isSample]
    exact ⟨#v[], Given.ofFinite_eq_ok_iff.mpr ⟨rfl, nofun⟩⟩
  have steps (count : Nat) (notEmpty : samples count ≠ [])
      (recordable : Dims.Recordable ⟨0, 1, 1⟩ (samples count).length) :=
    simulate_eq_steps constructed 1 [.assignReadoutWeights weights, .assignState (some #[1e270])]
      begins (samples count) notEmpty (accepted count) recordable
  have two : Dims.Recordable ⟨0, 1, 1⟩ 2 :=
    ⟨⟨by decide, by decide, by decide⟩, by decide, by decide⟩
  have four : Dims.Recordable ⟨0, 1, 1⟩ 4 := ⟨two.toCountable, by decide, by decide⟩
  have goesOn : (m.simulate (samples 2)).1.isOk = true := by decide +kernel
  have stops : (m.simulate (samples 4)).1.isOk = false := by decide +kernel
  constructor
  · cases ran : (m.simulate (samples 2)).1 with
    | error error =>
        rw [ran] at goesOn
        cases goesOn
    | ok matrix => exact ⟨matrix, rfl, ((steps 2 nofun two).2.1 matrix ran).1⟩
  · cases ran : (m.simulate (samples 4)).1 with
    | ok matrix =>
        rw [ran] at stops
        cases stops
    | error error =>
        obtain ⟨t, i, inside, earlier, fails, rfl⟩ := (steps 4 nofun four).2.2 error ran
        exact ⟨t, i, inside, earlier, fails, rfl⟩

end Main

end Machine

end EchoState
