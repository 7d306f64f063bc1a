import EchoState.Distance
import EchoState.Matrix.Product
import EchoState.Reservoir.Settings

/-!
# Reservoirs

A reservoir is a recurrent map `r ← tanh (A r + B x + d)` with a linear readout `W r`. Its numbers
of inputs, outputs and latents are part of its type, so every product in its equations fits. Beside
the parameters it records the last change of state, the number of steps taken, and whether some
step changed the state by less than the tolerance.
-/

namespace EchoState

structure Dims where
  inputs : Nat
  outputs : Nat
  latents : Nat
  deriving DecidableEq, Repr

def Dims.ofInts? (inputs outputs latents : Int) : Option Dims :=
  if inputs < 0 ∨ outputs < 0 ∨ latents < 0 then none
  else some ⟨inputs.toNat, outputs.toNat, latents.toNat⟩

/-- The cells of every matrix of weights can be counted, so that each has its own place. -/
structure Dims.Countable (d : Dims) : Prop where
  recurrent : d.latents * d.latents < wordLimit
  inputWeights : d.latents * d.inputs < wordLimit
  readoutWeights : d.outputs * d.latents < wordLimit

/-- So can the cells of the states and of the readouts of a simulation. -/
structure Dims.Recordable (d : Dims) (samples : Nat) : Prop extends d.Countable where
  states : d.latents * samples < wordLimit
  readouts : d.outputs * samples < wordLimit

structure Reservoir (α : Type) (d : Dims) where
  state : Vector α d.latents
  /-- The input held during discrete steps. -/
  input : Vector α d.inputs
  bias : Vector α d.latents
  /-- The state that the bias was chosen to hold fixed, or zeros. -/
  fixedPoint : Vector α d.latents
  /-- The input under which that state is held fixed, or zeros. -/
  fixedInput : Vector α d.inputs
  recurrent : Grid α d.latents d.latents
  inputWeights : Grid α d.latents d.inputs
  readoutWeights : Sheet α d.outputs d.latents
  /-- Some step so far changed the state by less than the tolerance. -/
  converged : Bool
  lastDelta : α
  steps : Nat
  settings : Settings α

structure AnyReservoir (α : Type) where
  dims : Dims
  reservoir : Reservoir α dims

namespace Reservoir

variable {α : Type} [Scalar α] {d : Dims}

def blank (d : Dims) (settings : Settings α) : Reservoir α d where
  state := Vector.replicate _ 0
  input := Vector.replicate _ 0
  bias := Vector.replicate _ 0
  fixedPoint := Vector.replicate _ 0
  fixedInput := Vector.replicate _ 0
  recurrent := Grid.zero
  inputWeights := Grid.zero
  readoutWeights := Sheet.zero
  converged := false
  lastDelta := Scalar.inf
  steps := 0
  settings

def create (inputs outputs latents : Int) (settings : Settings α) : Outcome α (AnyReservoir α) :=
  match Dims.ofInts? inputs outputs latents with
  | none => .error ⟨[.task .create], .negativeDimension⟩
  | some d => .ok ⟨d, blank d settings⟩

def activation (r : Reservoir α d) (state : Vector α d.latents) (input : Vector α d.inputs) :
    Vector α d.latents :=
  Vector.ofFn fun i =>
    Scalar.tanh (r.recurrent.rowDot state i + r.inputWeights.rowDot input i + r.bias.get i)

/-- The largest change between two states, which is no number unless both states are finite. -/
def change [Distances α] (next state : Vector α d.latents) : α :=
  if state.all Scalar.finite && next.all Scalar.finite then
    Distances.between Scalar.inf next.toList state.toList
  else Scalar.nan

/-- Installs the state of a completed step and keeps the books. -/
def install (r : Reservoir α d) (next : Vector α d.latents) (delta : α) : Reservoir α d :=
  { r with
    state := next
    converged := r.converged || Scalar.lt delta r.settings.tolerance
    lastDelta := delta
    steps := r.steps + 1 }

/-- One discrete step: the change of state and the reservoir afterwards. -/
def advance [Distances α] (r : Reservoir α d) : α × Reservoir α d :=
  let next := r.activation r.state r.input
  let delta := change next r.state
  (delta, r.install next delta)

def readout (r : Reservoir α d) : Vector α d.outputs :=
  r.readoutWeights.mulVec r.state

end Reservoir

end EchoState
