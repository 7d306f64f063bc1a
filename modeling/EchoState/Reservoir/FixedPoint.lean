import EchoState.Reservoir.Assign

/-!
# Reservoirs with a chosen fixed point

The bias of a reservoir can be chosen so that a given state is a fixed point of the discrete map
under a given input: `d = atanh r - (A r + B x)`. A base reservoir draws its input weights and its
fixed point from a sequence of uniform numbers and has no recurrent weights.
-/

namespace EchoState.Reservoir

variable {α : Type} [Scalar α] {d : Dims}

/-- Chooses the bias that holds a state fixed under the current input. -/
def anchor (r : Reservoir α d) (point : Vector α d.latents) : Reservoir α d :=
  { r with
    fixedPoint := point
    fixedInput := r.input
    bias := Vector.ofFn fun i =>
      Scalar.atanh (point.get i) - (r.recurrent.rowDot point i + r.inputWeights.rowDot r.input i) }

/-- Chooses the bias for a fixed point inside the domain of the inverse activation. -/
def anchorWithin (r : Reservoir α d) (point : Vector α d.latents) : Outcome α (Reservoir α d) :=
  match point.findFinIdx? fun value => Scalar.le 1 (Scalar.abs value) with
  | some i => .error ⟨[.fixedPointEntry i (point.get i)], .outsideDomain⟩
  | none => .ok (r.anchor point)

/-- The reservoir with the given weights whose bias holds a given state fixed under a given input.
Its dimensions are read off the weights; its state starts at zero. -/
def ofFixedPoint (recurrent inputWeights readoutWeights : Operand α) (point input : Given α)
    (settings : Settings α) : Outcome α (AnyReservoir α) :=
  Outcome.within (.task .createFixedPoint) do
    recurrent.checkPresent
    inputWeights.checkPresent
    readoutWeights.checkPresent
    recurrent.checkSquare
    let ⟨d, blank⟩ ← create inputWeights.cols readoutWeights.rows recurrent.rows settings
    let r ← blank.assignRecurrent recurrent
    let r ← r.assignInputWeights inputWeights
    let r ← r.assignReadoutWeights readoutWeights
    let state ← Outcome.within .fixedPoint (point.ofFinite d.latents)
    let r ← r.assignInput input
    let r ← r.anchorWithin state
    return ⟨d, r⟩

def baseWeight (uniform : α) : α :=
  (uniform - Scalar.ratio 1 2) * Scalar.ratio 1 20

def baseEntry (uniform : α) : α :=
  uniform - Scalar.ratio 1 2

/-- The base reservoir of a source of uniform numbers: first the input weights, row by row, and
then the fixed point are drawn; all other weights and the input are zero. -/
def ofDraws (inputs outputs latents : Int) (draw : (count : Nat) → Vector α count)
    (settings : Settings α) : Outcome α (AnyReservoir α) :=
  Outcome.within (.task .createRandom) <|
    match Dims.ofInts? inputs outputs latents with
    | none => .error (.of .negativeDimension)
    | some d => do
        let weights := d.latents * d.inputs
        let uniforms := (draw (weights + d.latents)).toArray
        let recurrent ← Matrix.zeros latents latents
        let inputWeights ←
          Matrix.ofValues latents inputs ((uniforms.take weights).map baseWeight)
        let readoutWeights ← Matrix.zeros outputs latents
        ofFixedPoint (.stored recurrent) (.stored inputWeights) (.stored readoutWeights)
          (some ((uniforms.drop weights).map baseEntry))
          (some (Array.replicate d.inputs 0)) settings

end EchoState.Reservoir
