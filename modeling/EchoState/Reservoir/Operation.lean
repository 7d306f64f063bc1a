import EchoState.Reservoir.Machine

/-!
# Operations

Everything that can be done to a reservoir once it is built, as data. `Machine.perform` carries an
operation out and replies; a run is a list of operations carried out one after another.
-/

namespace EchoState

inductive Operation (α : Type) where
  | advance
  | settle (signals : Signals α) (maxSteps : Int)
  | assignState (v : Given α)
  | assignInput (v : Given α)
  | assignBias (v : Given α)
  | assignRecurrent (m : Operand α)
  | assignInputWeights (m : Operand α)
  | assignReadoutWeights (m : Operand α)
  | propagate (x : Reservoir.StageInputs (Given α))
  | simulate (inputs : List (Given α))
  | clone

inductive Reply (α : Type) where
  | delta (value : α)
  /-- The end of an attempt to settle, if it ended within its bound. -/
  | settled (ending : Option (Settled α))
  | done (outcome : Outcome α Unit)
  | trajectory (outcome : Outcome α (Matrix α))

namespace Machine

variable {α : Type} [Scalar α] {d : Dims}

def answer (result : Outcome α Unit × Machine α d) : Reply α × Machine α d :=
  (.done result.1, result.2)

variable [Distances α]

/-- Carries out one operation; attempts to settle are bounded. -/
def perform (bound : Nat) (m : Machine α d) : Operation α → Reply α × Machine α d
  | .advance => let (delta, next) := m.advance; (.delta delta, next)
  | .settle signals maxSteps =>
      let (ending, next) := m.settle bound signals maxSteps
      (.settled ending, next)
  | .assignState v => answer (m.adopt (m.reservoir.assignState v))
  | .assignInput v => answer (m.adopt (m.reservoir.assignInput v))
  | .assignBias v => answer (m.adopt (m.reservoir.assignBias v))
  | .assignRecurrent a => answer (m.adopt (m.reservoir.assignRecurrent a))
  | .assignInputWeights b => answer (m.adopt (m.reservoir.assignInputWeights b))
  | .assignReadoutWeights w => answer (m.adopt (m.reservoir.assignReadoutWeights w))
  | .propagate x => answer (m.propagate x)
  | .simulate inputs => let (outcome, next) := m.simulate inputs; (.trajectory outcome, next)
  | .clone => (.done (.ok ()), m.clone)

def performAll (bound : Nat) : Machine α d → List (Operation α) → List (Reply α) × Machine α d
  | m, [] => ([], m)
  | m, operation :: rest =>
      let (reply, next) := m.perform bound operation
      let (replies, last) := performAll bound next rest
      (reply :: replies, last)

end Machine

end EchoState
