import EchoState.Proofs.Reservoir.Buffers
import EchoState.Proofs.Reservoir.History
import EchoState.Reservoir.Text

/-!
# What can be seen of a machine

An exchange with a machine is a list of operations and questions. The same exchange can be had with
a reservoir alone, which has no buffers: every operation is then a function of the reservoir. A
machine answers an exchange as its reservoir does and leaves the reservoir that its reservoir
becomes, so nothing that its buffers hold, or whether there are any, can be told from outside.
-/

namespace EchoState

variable {α : Type}

/-- A question about a reservoir, which changes nothing. -/
inductive Question where
  | dims
  | state
  | input
  | bias
  | fixedPoint
  | fixedInput
  | recurrent
  | inputWeights
  | readoutWeights
  | readout
  | converged
  | steps
  | lastDelta
  | settings
  | dump (places : Int)

inductive Answer (α : Type) where
  | dims (d : Dims)
  | vector (entries : Array α)
  | matrix (m : Matrix α)
  | flag (isSet : Bool)
  | count (n : Nat)
  | number (x : α)
  | settings (numbers : Settings α)
  | text (dump : String)

inductive Turn (α : Type) where
  | perform (operation : Operation α)
  | ask (question : Question)

inductive Response (α : Type) where
  | reply (reply : Reply α)
  | answer (answer : Answer α)

variable [Scalar α] {d : Dims}

namespace Reservoir

/-- Carries out an attempt that only says whether it succeeded. -/
def attempt (r : Reservoir α d) (outcome : Outcome α (Reservoir α d)) :
    Reply α × Reservoir α d :=
  (.done (outcome.map fun _ => ()), r.afterwards outcome)

/-- Carries out one operation without any buffers; attempts to settle are bounded. -/
def perform [Distances α] (bound : Nat) (r : Reservoir α d) : Operation α → Reply α × Reservoir α d
  | .advance => (.delta r.advance.1, r.advance.2)
  | .settle signals maxSteps =>
      let (ending, next) := r.settle bound signals maxSteps
      (.settled ending, next)
  | .assignState v => r.attempt (r.assignState v)
  | .assignInput v => r.attempt (r.assignInput v)
  | .assignBias v => r.attempt (r.assignBias v)
  | .assignRecurrent m => r.attempt (r.assignRecurrent m)
  | .assignInputWeights m => r.attempt (r.assignInputWeights m)
  | .assignReadoutWeights m => r.attempt (r.assignReadoutWeights m)
  | .propagate x => r.attempt (r.propagate x)
  | .simulate inputs =>
      let outcome := r.simulate inputs
      (.trajectory (outcome.map fun result => ⟨d.outputs, inputs.length, result.1⟩),
        r.afterwards (outcome.map Prod.snd))
  | .clone => (.done (.ok ()), r)

variable [Legible α]

def answer (r : Reservoir α d) : Question → Answer α
  | .dims => .dims d
  | .state => .vector r.state.toArray
  | .input => .vector r.input.toArray
  | .bias => .vector r.bias.toArray
  | .fixedPoint => .vector r.fixedPoint.toArray
  | .fixedInput => .vector r.fixedInput.toArray
  | .recurrent => .matrix (.ofGrid r.recurrent)
  | .inputWeights => .matrix (.ofGrid r.inputWeights)
  | .readoutWeights => .matrix ⟨d.outputs, d.latents, r.readoutWeights⟩
  | .readout => .vector r.readout.toArray
  | .converged => .flag r.converged
  | .steps => .count r.steps
  | .lastDelta => .number r.lastDelta
  | .settings => .settings r.settings
  | .dump places => .text (r.format places)

variable [Distances α]

def take (bound : Nat) (r : Reservoir α d) : Turn α → Response α × Reservoir α d
  | .perform operation => let (reply, next) := r.perform bound operation; (.reply reply, next)
  | .ask question => (.answer (r.answer question), r)

def exchange (bound : Nat) : Reservoir α d → List (Turn α) → List (Response α) × Reservoir α d
  | r, [] => ([], r)
  | r, turn :: rest =>
      let (response, next) := r.take bound turn
      let (responses, last) := exchange bound next rest
      (response :: responses, last)

end Reservoir

namespace Machine

section Exchange

variable [Distances α] [Legible α]

def take (bound : Nat) (m : Machine α d) : Turn α → Response α × Machine α d
  | .perform operation => let (reply, next) := m.perform bound operation; (.reply reply, next)
  | .ask question => (.answer (m.reservoir.answer question), m)

def exchange (bound : Nat) : Machine α d → List (Turn α) → List (Response α) × Machine α d
  | m, [] => ([], m)
  | m, turn :: rest =>
      let (response, next) := m.take bound turn
      let (responses, last) := exchange bound next rest
      (response :: responses, last)

end Exchange

omit [Scalar α] in
theorem reservoir_adopt (m : Machine α d) (outcome : Outcome α (Reservoir α d)) :
    Prod.map id reservoir (answer (m.adopt outcome)) = m.reservoir.attempt outcome := by
  cases outcome with
  | error error => rfl
  | ok next => rfl

variable [Distances α]

theorem reservoir_perform (bound : Nat) (m : Machine α d) (operation : Operation α) :
    Prod.map id reservoir (m.perform bound operation) = m.reservoir.perform bound operation := by
  cases operation with
  | advance =>
      unfold perform
      rw [advance_eq]
      rfl
  | settle signals maxSteps =>
      have settled := m.reservoir_settle bound signals maxSteps
      exact congrArg (Prod.map Reply.settled id) settled
  | assignState v => exact m.reservoir_adopt _
  | assignInput v => exact m.reservoir_adopt _
  | assignBias v => exact m.reservoir_adopt _
  | assignRecurrent a => exact m.reservoir_adopt _
  | assignInputWeights b => exact m.reservoir_adopt _
  | assignReadoutWeights w => exact m.reservoir_adopt _
  | propagate x =>
      obtain ⟨answered, left⟩ := m.propagate_eq x
      exact Prod.ext (congrArg Reply.done answered) left
  | simulate inputs =>
      obtain ⟨answered, left⟩ := m.simulate_eq inputs
      exact Prod.ext (congrArg Reply.trajectory answered) left
  | clone => rfl

variable [Legible α]

theorem reservoir_take (bound : Nat) (m : Machine α d) (turn : Turn α) :
    Prod.map id reservoir (m.take bound turn) = m.reservoir.take bound turn := by
  cases turn with
  | perform operation =>
      exact congrArg (Prod.map Response.reply id) (m.reservoir_perform bound operation)
  | ask question => rfl

theorem reservoir_exchange (bound : Nat) (m : Machine α d) (turns : List (Turn α)) :
    Prod.map id reservoir (m.exchange bound turns) = m.reservoir.exchange bound turns := by
  induction turns generalizing m with
  | nil => rfl
  | cons turn rest ih =>
      have onward := ih (m.take bound turn).2
      unfold exchange Reservoir.exchange
      rw [← m.reservoir_take bound turn]
      exact congrArg (Prod.map ((m.take bound turn).1 :: ·) id) onward

/-- The buffers of a machine cannot be told from outside: every exchange has the same responses and
leaves the same reservoir when the buffers are replaced by any others, or by none, and when it is
had with a copy, whose buffers are fresh. All three follow from the reservoir alone. -/
theorem exchange_regardless_of_buffers (bound : Nat) (m : Machine α d)
    (spare : Vector α d.latents) (stages : Option (StageBuffers α d.latents))
    (turns : List (Turn α)) :
    let seen (machine : Machine α d) : List (Response α) × Reservoir α d :=
      Prod.map id reservoir (machine.exchange bound turns)
    seen { m with spare, stages } = seen m ∧ seen m.clone = seen m ∧
      seen m = m.reservoir.exchange bound turns := by
  intro seen
  have alone (machine : Machine α d) : seen machine = machine.reservoir.exchange bound turns :=
    machine.reservoir_exchange bound turns
  refine ⟨?replaced, ?copied, alone m⟩
  case replaced => exact (alone { m with spare, stages }).trans (alone m).symm
  case copied => exact (alone m.clone).trans (alone m).symm

end Machine

end EchoState
