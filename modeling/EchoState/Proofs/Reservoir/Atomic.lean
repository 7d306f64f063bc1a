import EchoState.Proofs.Reservoir.Buffers
import EchoState.Proofs.Reservoir.History

/-!
# Failed operations

An operation other than a discrete step or an attempt to settle either does what it was asked to do
or reports an error and leaves every part of the reservoir as it was. A simulation copies the state
back on every way out but one, after the readout of its record; that way out is never taken.
-/

namespace EchoState

variable {α : Type} [Scalar α] {d : Dims}

def Reply.failure? : Reply α → Option (Error α)
  | .delta _ => none
  | .settled ending => ending.bind Settled.failure
  | .done (.error error) => some error
  | .done (.ok _) => none
  | .trajectory (.error error) => some error
  | .trajectory (.ok _) => none

namespace Machine

omit [Scalar α] in
theorem reservoir_adopt_of_error {m : Machine α d} {attempt : Outcome α (Reservoir α d)}
    {error : Error α} (failed : (answer (m.adopt attempt)).1.failure? = some error) :
    (answer (m.adopt attempt)).2.reservoir = m.reservoir := by
  cases attempt with
  | error cause => rfl
  | ok next => cases failed

theorem reservoir_propagate_of_error {m : Machine α d} {x : Reservoir.StageInputs (Given α)}
    {error : Error α} (failed : (answer (m.propagate x)).1.failure? = some error) :
    (answer (m.propagate x)).2.reservoir = m.reservoir := by
  obtain ⟨answered, left⟩ := m.propagate_eq x
  unfold answer at failed ⊢
  rw [answered] at failed
  rw [left]
  cases outcome : m.reservoir.propagate x with
  | error cause => rfl
  | ok next =>
      rw [outcome] at failed
      cases failed

theorem reservoir_simulate_of_error {m : Machine α d} {inputs : List (Given α)} {error : Error α}
    (failed : (m.simulate inputs).1 = .error error) :
    (m.simulate inputs).2.reservoir = m.reservoir := by
  obtain ⟨answered, left⟩ := m.simulate_eq inputs
  rw [answered] at failed
  rw [left]
  cases outcome : m.reservoir.simulate inputs with
  | error cause => rfl
  | ok result =>
      rw [outcome] at failed
      cases failed

/-- A simulation fails before its record is read out: at a sample that is refused, or at a state
that cannot be recorded. -/
theorem simulate_error_cases {m : Machine α d} {inputs : List (Given α)} {error : Error α}
    (failed : (m.simulate inputs).1 = .error error) :
    (∃ cause, Reservoir.checkSamples (Reservoir.counted inputs) d.inputs = .error cause ∧
        error = cause.within (.task .simulate)) ∨
      ∃ samples cause, Reservoir.checkSamples (Reservoir.counted inputs) d.inputs = .ok samples ∧
        (m.integrate samples).1 = .error cause ∧ error = cause.within (.task .simulate) := by
  unfold simulate at failed
  cases accepted : Reservoir.checkSamples (Reservoir.counted inputs) d.inputs with
  | error cause =>
      rw [accepted] at failed
      exact Or.inl ⟨cause, rfl, (Except.error.inj failed).symm⟩
  | ok samples =>
      rw [accepted] at failed
      refine Or.inr ⟨samples, ?_⟩
      dsimp only at failed
      generalize m.integrate samples = integrated at failed ⊢
      obtain ⟨outcome, moved⟩ := integrated
      cases outcome with
      | error cause => exact ⟨cause, rfl, rfl, (Except.error.inj failed).symm⟩
      | ok record =>
          dsimp only at failed
          rw [product_record] at failed
          cases failed

variable [Distances α]

/-- An operation without discrete steps that reports an error leaves the whole reservoir as it was,
whatever its argument, and a simulation never fails after its record is complete: it reports a
refused sample or a state that is not finite, and no record whose cells can be counted fails to be
read out. -/
theorem reservoir_perform_of_failure (m : Machine α d) :
    (∀ (bound : Nat) (operation : Operation α) (error : Error α), operation.steps = false →
        (m.perform bound operation).1.failure? = some error →
        (m.perform bound operation).2.reservoir = m.reservoir) ∧
      (∀ (inputs : List (Given α)) (error : Error α), (m.simulate inputs).1 = .error error →
        (∃ cause, Reservoir.checkSamples (Reservoir.counted inputs) d.inputs = .error cause ∧
          error = cause.within (.task .simulate)) ∨
        ∃ samples cause,
          Reservoir.checkSamples (Reservoir.counted inputs) d.inputs = .ok samples ∧
            (m.integrate samples).1 = .error cause ∧ error = cause.within (.task .simulate)) ∧
      ∀ (samples : Nat) (record : Grid α d.latents samples), d.Recordable samples → ∃ matrix,
        (Operand.stored ⟨d.outputs, d.latents, m.reservoir.readoutWeights⟩).product
          (.stored (.ofGrid record)) = .ok matrix := by
  refine ⟨?_, fun inputs error => simulate_error_cases,
    fun samples record _ => ⟨_, product_record m.reservoir record⟩⟩
  intro bound operation error quiet failed
  cases operation with
  | advance => cases quiet
  | settle signals maxSteps => cases quiet
  | assignState v => exact reservoir_adopt_of_error failed
  | assignInput v => exact reservoir_adopt_of_error failed
  | assignBias v => exact reservoir_adopt_of_error failed
  | assignRecurrent a => exact reservoir_adopt_of_error failed
  | assignInputWeights b => exact reservoir_adopt_of_error failed
  | assignReadoutWeights w => exact reservoir_adopt_of_error failed
  | propagate x => exact reservoir_propagate_of_error failed
  | simulate inputs =>
      unfold perform at failed ⊢
      dsimp only at failed ⊢
      generalize answered : (m.simulate inputs).1 = outcome at failed
      cases outcome with
      | error cause => exact reservoir_simulate_of_error answered
      | ok matrix => cases failed
  | clone => cases failed

/-- A fast integration in binary64 that diverges on its way to the third sample, after a step that
did not, and a matrix whose second cell cannot be read. -/
theorem reservoir_perform_of_failure_binary64 :
    let settings : Settings Float := { Settings.standard with timescale := 1, gamma := 1e6 }
    let plain : Reservoir Float ⟨0, 1, 1⟩ := Reservoir.blank _ settings
    let m := ofReservoir { plain with state := #v[1e270] }
    let diverging : Operation Float := .simulate (List.replicate 4 (some #[]))
    let faulty : Operation Float := .assignReadoutWeights
      (.view ⟨1, 1, fun _ _ => .error (.of .unreadable)⟩)
    ((m.perform 1 diverging).1.failure?.map Error.cause = some .notFinite ∧
        (m.perform 1 diverging).2.reservoir = m.reservoir) ∧
      (m.perform 1 faulty).1.failure?.map Error.cause = some .unreadable ∧
        (m.perform 1 faulty).2.reservoir = m.reservoir := by
  intro settings plain m diverging faulty
  have unchanged := (reservoir_perform_of_failure m).1
  have diverges : (m.perform 1 diverging).1.failure?.map Error.cause = some .notFinite := by
    decide +kernel
  have unreadable : (m.perform 1 faulty).1.failure?.map Error.cause = some .unreadable := by
    decide +kernel
  obtain ⟨error, failed, _⟩ := Option.map_eq_some_iff.mp diverges
  obtain ⟨error', failed', _⟩ := Option.map_eq_some_iff.mp unreadable
  exact ⟨⟨diverges, unchanged 1 diverging error rfl failed⟩,
    unreadable, unchanged 1 faulty error' rfl failed'⟩

end Machine

end EchoState
