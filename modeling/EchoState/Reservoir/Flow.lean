import EchoState.Reservoir.Basic

/-!
# Continuous dynamics

Between samples the state follows `dr/dt = γ (-r + tanh (A r + B x + d))`, integrated by the
classic four-stage rule with the time step of the settings. `propagate` makes one step and
`simulate` one step for each sample but the last, recording the readout before each of them. A step
that leaves the finite numbers is an error and leaves no trace.
-/

namespace EchoState.Reservoir

variable {α : Type} [Scalar α] {d : Dims}

/-- The four inputs of one integration step: at its start, twice at its middle, and at its end. -/
structure StageInputs (β : Type) where
  start : β
  firstMiddle : β
  secondMiddle : β
  finish : β

namespace StageInputs

def held {β : Type} (input : β) : StageInputs β :=
  ⟨input, input, input, input⟩

/-- The stage inputs of accepted length and finite entries, or the first refused stage. -/
def check (x : StageInputs (Given α)) (n : Nat) : Outcome α (StageInputs (Vector α n)) := do
  let start ← Outcome.within (.stage 0) (x.start.ofFinite n)
  let firstMiddle ← Outcome.within (.stage 1) (x.firstMiddle.ofFinite n)
  let secondMiddle ← Outcome.within (.stage 2) (x.secondMiddle.ofFinite n)
  let finish ← Outcome.within (.stage 3) (x.finish.ofFinite n)
  return ⟨start, firstMiddle, secondMiddle, finish⟩

end StageInputs

def addScaled {n : Nat} (y : Vector α n) (factor : α) (s : Vector α n) : Vector α n :=
  Vector.ofFn fun i => y.get i + factor * s.get i

def drift (r : Reservoir α d) (state : Vector α d.latents) (input : Vector α d.inputs) :
    Vector α d.latents :=
  let active := r.activation state input
  Vector.ofFn fun i =>
    (active.get i - state.get i) * (r.settings.timescale * r.settings.gamma)

def flow (r : Reservoir α d) (state : Vector α d.latents)
    (x : StageInputs (Vector α d.inputs)) : Vector α d.latents :=
  let k₁ := r.drift state x.start
  let k₂ := r.drift (addScaled state (Scalar.ratio 1 2) k₁) x.firstMiddle
  let k₃ := r.drift (addScaled state (Scalar.ratio 1 2) k₂) x.secondMiddle
  let k₄ := r.drift (addScaled state 1 k₃) x.finish
  let sum := addScaled state (Scalar.ratio 1 6) k₁
  let sum := addScaled sum (Scalar.ratio 2 6) k₂
  let sum := addScaled sum (Scalar.ratio 2 6) k₃
  addScaled sum (Scalar.ratio 1 6) k₄

def propagate (r : Reservoir α d) (x : StageInputs (Given α)) : Outcome α (Reservoir α d) :=
  Outcome.within (.task .propagate) do
    let inputs ← x.check d.inputs
    let state := r.flow r.state inputs
    checkFiniteVector state.toArray
    return { r with state }

/-- The state before each sample, starting with the given one, each sample being held for one
step. -/
def orbit (r : Reservoir α d) : Vector α d.latents → List (Vector α d.inputs) →
    List (Vector α d.latents)
  | _, [] => []
  | state, [_] => [state]
  | state, x :: rest => state :: r.orbit (r.flow state (.held x)) rest

@[simp]
theorem length_orbit (r : Reservoir α d) (state : Vector α d.latents)
    (samples : List (Vector α d.inputs)) : (r.orbit state samples).length = samples.length := by
  induction samples generalizing state with
  | nil => rfl
  | cons x rest ih =>
      cases rest with
      | nil => rfl
      | cons y others => simp [orbit, ih]

/-- The first sample before which the state is not finite, with the first such entry. -/
def firstNonFinite? (states : List (Vector α d.latents)) : Option (Nat × Fin d.latents) :=
  states.zipIdx.findSome? fun (state, t) =>
    (state.findFinIdx? fun value => !Scalar.finite value).map fun i => (t, i)

/-- The samples of accepted length and finite entries, or the first refused sample. -/
def checkSamples {count : Nat} (given : Vector (Given α) count) (n : Nat) :
    Outcome α (Vector (Vector α n) count) :=
  collect fun t => Outcome.within (.sample t) ((given.get t).ofFinite n)

def counted (inputs : List (Given α)) : Vector (Given α) inputs.length :=
  ⟨inputs.toArray, rfl⟩

/-- Integrates over a sequence of input samples. Column `t` of the result is the readout before
sample `t`; the reservoir is left in the last of these states. -/
def simulate (r : Reservoir α d) (inputs : List (Given α)) :
    Outcome α (Sheet α d.outputs inputs.length × Reservoir α d) :=
  Outcome.within (.task .simulate) do
    let samples ← checkSamples (counted inputs) d.inputs
    let states := r.orbit r.state samples.toList
    match firstNonFinite? states with
    | some (t, i) => .error ⟨[.time t, .cell .set i t], .notFinite⟩
    | none =>
        let columns : Vector (Vector α d.latents) inputs.length :=
          ⟨states.toArray, by simp [states]⟩
        return (r.readoutWeights.mul (.whole (Grid.ofColumns columns)),
          { r with state := states.getLast?.getD r.state })

end EchoState.Reservoir
