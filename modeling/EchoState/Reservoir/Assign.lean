import EchoState.Reservoir.Basic

/-!
# Replacing parts

Callers may replace the state, the input, the bias and the three weight matrices. What they hand
over must be present, of the right shape and finite; otherwise nothing is replaced. The record of
past steps is never touched.
-/

namespace EchoState.Reservoir

variable {α : Type} [Scalar α] {d : Dims}

def assignState (r : Reservoir α d) (v : Given α) : Outcome α (Reservoir α d) :=
  Outcome.within (.task (.assign .state)) do
    let state ← v.ofFinite d.latents
    return { r with state }

def assignInput (r : Reservoir α d) (v : Given α) : Outcome α (Reservoir α d) :=
  Outcome.within (.task (.assign .input)) do
    let input ← v.ofFinite d.inputs
    return { r with input }

def assignBias (r : Reservoir α d) (v : Given α) : Outcome α (Reservoir α d) :=
  Outcome.within (.task (.assign .bias)) do
    let bias ← v.ofFinite d.latents
    return { r with bias }

def assignRecurrent (r : Reservoir α d) (m : Operand α) : Outcome α (Reservoir α d) :=
  Outcome.within (.task (.assign .recurrent)) do
    let recurrent ← m.toGrid d.latents d.latents
    return { r with recurrent }

def assignInputWeights (r : Reservoir α d) (m : Operand α) : Outcome α (Reservoir α d) :=
  Outcome.within (.task (.assign .inputWeights)) do
    let inputWeights ← m.toGrid d.latents d.inputs
    return { r with inputWeights }

def assignReadoutWeights (r : Reservoir α d) (m : Operand α) : Outcome α (Reservoir α d) :=
  Outcome.within (.task (.assign .readoutWeights)) do
    let readoutWeights ← m.toSheet d.outputs d.latents
    return { r with readoutWeights }

end EchoState.Reservoir
