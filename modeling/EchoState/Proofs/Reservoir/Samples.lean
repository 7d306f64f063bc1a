import EchoState.Proofs.Reservoir.Simulation

/-!
# Simulations of lists of samples

A simulation in terms of the samples themselves. The inputs that are accepted are exactly finite
samples of the right length, and a simulation of them either diverges, that is, meets a state that
is not finite before one of them, or records the states before them and stops in the last of these.
The state before a sample is where the flow along the earlier samples leads.
-/

namespace EchoState

variable {α : Type} [Scalar α] {d : Dims}

namespace Reservoir

/-- The integration over the samples reaches a state that is not finite before one of them. -/
def Diverges (r : Reservoir α d) (samples : List (Vector α d.inputs)) : Prop :=
  ∃ t < samples.length, ¬AllFinite (r.flowAlong r.state (samples.take t)).toArray

/-- The readouts of so many states, one a column. -/
def recorded (r : Reservoir α d) (count : Nat) (states : Nat → Vector α d.latents) : Matrix α :=
  ⟨d.outputs, count,
    r.readoutWeights.mul (.whole (.ofFn fun i (t : Fin count) => (states t).get i))⟩

theorem flowAlong_append (r : Reservoir α d) (state : Vector α d.latents)
    (first second : List (Vector α d.inputs)) :
    r.flowAlong state (first ++ second) = r.flowAlong (r.flowAlong state first) second :=
  List.foldl_append

/-- A record with a column for each input has one for each sample. -/
theorem record_eq_recorded (r : Reservoir α d) {inputs : List (Given α)}
    {samples : List (Vector α d.inputs)} (given : inputs = samples.map fun x => some x.toArray)
    (states : Nat → Vector α d.latents) :
    (⟨d.outputs, inputs.length, r.readoutWeights.mul (.whole (.ofFn fun i
        (t : Fin inputs.length) => (states t).get i))⟩ : Matrix α) =
      r.recorded samples.length states := by
  have count : inputs.length = samples.length := by rw [given, List.length_map]
  exact congrArg (fun count => r.recorded count states) count

/-- Inputs that are accepted are finite samples. -/
theorem exists_samples_of_checkSamples {inputs : List (Given α)} {n : Nat}
    {accepted : Vector (Vector α n) inputs.length}
    (checked : checkSamples (counted inputs) n = .ok accepted) :
    ∃ samples : List (Vector α n), (inputs = samples.map fun x => some x.toArray) ∧
      ∀ x ∈ samples, AllFinite x.toArray := by
  have each (t : Fin inputs.length) :=
    Given.ofFinite_eq_ok_iff.mp (checkSamples_eq_ok_iff.mp checked t)
  refine ⟨accepted.toList, List.ext_getElem (by simp) fun t inside _ => ?_, fun x listed => ?_⟩
  · rw [List.getElem_map]
    exact (each ⟨t, inside⟩).1
  · obtain ⟨t, inside, rfl⟩ := Vector.mem_iff_getElem.mp (Vector.mem_toList_iff.mp listed)
    exact (each ⟨t, inside⟩).2

section Accepted

variable {r : Reservoir α d} {samples : List (Vector α d.inputs)}
  (finite : ∀ x ∈ samples, AllFinite x.toArray)

include finite

variable (r) in
/-- Finite samples are accepted, and the states before them are those that the flow leads to. -/
theorem exists_accepted :
    ∃ accepted, checkSamples (counted (samples.map fun x => some x.toArray)) d.inputs =
        .ok accepted ∧
      ∀ t, r.stateBefore accepted t = r.flowAlong r.state (samples.take t) := by
  refine ⟨⟨samples.toArray, by simp⟩, checkSamples_eq_ok_iff.mpr fun t => ?_, fun t => rfl⟩
  have inside : t.val < samples.length := by simpa using t.isLt
  refine Given.ofFinite_eq_ok_iff.mpr ⟨?_, finite _ (List.getElem_mem inside)⟩
  simp [counted, Vector.get]

variable {inputs : List (Given α)} (given : inputs = samples.map fun x => some x.toArray)

include given

/-- An integration that stays finite gives the readout of the states before the samples and stops in
the last of them. -/
theorem simulate_of_not_diverges (stays : ¬r.Diverges samples) :
    r.simulate inputs =
      .ok (r.readoutWeights.mul (.whole (.ofFn fun i (t : Fin inputs.length) =>
        (r.flowAlong r.state (samples.take t)).get i)),
        { r with state := r.flowAlong r.state (samples.take (inputs.length - 1)) }) := by
  subst given
  obtain ⟨accepted, checked, before⟩ := r.exists_accepted finite
  have allFinite : ∀ t < (samples.map fun x => some x.toArray).length,
      AllFinite (r.stateBefore accepted t).toArray := by
    intro t inside
    rw [List.length_map] at inside
    by_contra notFinite
    rw [before] at notFinite
    exact stays ⟨t, inside, notFinite⟩
  have simulated := simulate_of_finite checked allFinite
  simp only [before] at simulated
  exact simulated

/-- An integration that does not stay finite reports the first entry of the first state that is
not. -/
theorem simulate_of_first_nonFinite {t : Nat} {i : Fin d.latents} (inside : t < samples.length)
    (earlier : ∀ s < t, AllFinite (r.flowAlong r.state (samples.take s)).toArray)
    (found : ((r.flowAlong r.state (samples.take t)).findFinIdx? fun value =>
      !Scalar.finite value) = some i) :
    r.simulate inputs = .error ⟨[.task .simulate, .time t, .cell .set i t], .notFinite⟩ := by
  subst given
  obtain ⟨accepted, checked, before⟩ := r.exists_accepted finite
  simp only [← before] at earlier found
  exact simulate_of_nonFinite checked (by rwa [List.length_map]) earlier found

omit finite given in
/-- An integration that diverges meets a first state that is not finite, and in it a first such
entry. -/
theorem Diverges.exists_first (diverges : r.Diverges samples) :
    ∃ t i, t < samples.length ∧
      (∀ s < t, AllFinite (r.flowAlong r.state (samples.take s)).toArray) ∧
      ((r.flowAlong r.state (samples.take t)).findFinIdx? fun value =>
        !Scalar.finite value) = some i := by
  classical
  obtain ⟨inside, notFinite⟩ := Nat.find_spec diverges
  have earlier (s : Nat) (less : s < Nat.find diverges) :
      AllFinite (r.flowAlong r.state (samples.take s)).toArray := by
    by_contra notFinite
    exact Nat.find_min diverges less ⟨less.trans inside, notFinite⟩
  cases found : (r.flowAlong r.state (samples.take (Nat.find diverges))).findFinIdx? fun value =>
      !Scalar.finite value with
  | none => exact absurd (allFinite_of_findFinIdx?_eq_none found) notFinite
  | some i => exact ⟨_, i, inside, earlier, found⟩

end Accepted

end Reservoir

namespace Machine

variable {m : Machine α d} {inputs : List (Given α)}

section Accepted

variable {samples : List (Vector α d.inputs)} (finite : ∀ x ∈ samples, AllFinite x.toArray)
  (given : inputs = samples.map fun x => some x.toArray)

include finite given

/-- A simulation that stays finite records the states before its samples, and leaves the machine in
the last of them. -/
theorem simulate_of_not_diverges (stays : ¬m.reservoir.Diverges samples) :
    (m.simulate inputs).1 = .ok (m.reservoir.recorded samples.length fun t =>
        m.reservoir.flowAlong m.reservoir.state (samples.take t)) ∧
      (m.simulate inputs).2.reservoir = { m.reservoir with
        state := m.reservoir.flowAlong m.reservoir.state
          (samples.take (samples.length - 1)) } := by
  have count : inputs.length = samples.length := by rw [given, List.length_map]
  obtain ⟨answered, left⟩ := m.simulate_eq inputs
  rw [Reservoir.simulate_of_not_diverges finite given stays] at answered left
  refine ⟨answered.trans (congrArg Except.ok ?_), left.trans ?_⟩
  · exact m.reservoir.record_eq_recorded given fun t =>
      m.reservoir.flowAlong m.reservoir.state (samples.take t)
  · rw [← count]
    rfl

/-- A simulation that diverges reports the first entry of the first state that is not finite, and
leaves the reservoir as it was. -/
theorem simulate_of_first_nonFinite {t : Nat} {i : Fin d.latents} (inside : t < samples.length)
    (earlier : ∀ s < t,
      AllFinite (m.reservoir.flowAlong m.reservoir.state (samples.take s)).toArray)
    (found : ((m.reservoir.flowAlong m.reservoir.state (samples.take t)).findFinIdx? fun value =>
      !Scalar.finite value) = some i) :
    (m.simulate inputs).1 =
        .error ⟨[.task .simulate, .time t, .cell .set i t], .notFinite⟩ ∧
      (m.simulate inputs).2.reservoir = m.reservoir := by
  obtain ⟨answered, left⟩ := m.simulate_eq inputs
  rw [Reservoir.simulate_of_first_nonFinite finite given inside earlier found] at answered left
  exact ⟨answered, left⟩

theorem simulate_of_diverges (diverges : m.reservoir.Diverges samples) :
    ∃ error, (m.simulate inputs).1 = .error error := by
  obtain ⟨t, i, inside, earlier, found⟩ := diverges.exists_first
  exact ⟨_, (simulate_of_first_nonFinite finite given inside earlier found).1⟩

end Accepted

/-- A simulation succeeds exactly when its inputs are finite samples over which the integration does
not diverge. -/
theorem exists_simulate_iff :
    (∃ matrix, (m.simulate inputs).1 = .ok matrix) ↔
      ∃ samples : List (Vector α d.inputs), (inputs = samples.map fun x => some x.toArray) ∧
        (∀ x ∈ samples, AllFinite x.toArray) ∧ ¬m.reservoir.Diverges samples := by
  constructor
  · rintro ⟨matrix, ok⟩
    cases checked : Reservoir.checkSamples (Reservoir.counted inputs) d.inputs with
    | error error =>
        unfold simulate at ok
        rw [checked] at ok
        cases ok
    | ok accepted =>
        obtain ⟨samples, given, finite⟩ := Reservoir.exists_samples_of_checkSamples checked
        refine ⟨samples, given, finite, fun diverges => ?_⟩
        obtain ⟨error, failed⟩ := simulate_of_diverges finite given diverges
        rw [failed] at ok
        cases ok
  · rintro ⟨samples, given, finite, stays⟩
    exact ⟨_, (simulate_of_not_diverges finite given stays).1⟩

end Machine

end EchoState
