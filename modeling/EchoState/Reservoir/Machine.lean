import EchoState.Reservoir.Assign
import EchoState.Reservoir.Flow
import EchoState.Reservoir.Settle

/-!
# Machines

A machine is a reservoir together with the buffers it computes in. A discrete step writes the next
state into the spare buffer and exchanges it with the state; an integration step keeps the state
to go back to in the same buffer and its four slopes in buffers that are made on first use. Every
buffer is overwritten before it is read, so a machine behaves as its reservoir does.
-/

namespace EchoState

/-- The buffers of the four slopes of an integration step and of the states they are taken at. -/
structure StageBuffers (α : Type) (n : Nat) where
  first : Vector α n
  second : Vector α n
  third : Vector α n
  fourth : Vector α n
  probe : Vector α n

structure Machine (α : Type) (d : Dims) where
  reservoir : Reservoir α d
  /-- Receives the next state of a discrete step, or the state to go back to. -/
  spare : Vector α d.latents
  /-- The buffers of the integration, once there are any. -/
  stages : Option (StageBuffers α d.latents)

namespace Machine

variable {α : Type} [Scalar α] {d : Dims}

def ofReservoir (r : Reservoir α d) : Machine α d :=
  ⟨r, Vector.replicate d.latents 0, none⟩

/-- An independent copy, with fresh buffers. -/
def clone (m : Machine α d) : Machine α d :=
  ofReservoir m.reservoir

def copyInto {n : Nat} (buffer source : Vector α n) : Vector α n :=
  overwrite buffer fun i _ => source.get i

def activateInto (r : Reservoir α d) (buffer state : Vector α d.latents)
    (input : Vector α d.inputs) : Vector α d.latents :=
  let buffer := overwrite buffer fun i _ => r.recurrent.rowDot state i
  let buffer := overwrite buffer fun i old => old + r.inputWeights.rowDot input i
  let buffer := overwrite buffer fun i old => old + r.bias.get i
  overwrite buffer fun _ old => Scalar.tanh old

def advance [Distances α] (m : Machine α d) : α × Machine α d :=
  let r := m.reservoir
  let next := activateInto r m.spare r.state r.input
  let delta := Reservoir.change next r.state
  (delta, { m with reservoir := r.install next delta, spare := r.state })

def settle [Distances α] (m : Machine α d) (bound : Nat) (signals : Signals α) (maxSteps : Int) :
    Option (Settled α) × Machine α d :=
  settleLoop (fun machine => machine.reservoir.converged) advance signals maxSteps bound 0 m

def driftInto (r : Reservoir α d) (buffer state : Vector α d.latents) (input : Vector α d.inputs) :
    Vector α d.latents :=
  let buffer := activateInto r buffer state input
  let buffer := overwrite buffer fun i old => old - state.get i
  overwrite buffer fun _ old => old * (r.settings.timescale * r.settings.gamma)

def addScaledInto {n : Nat} (buffer y : Vector α n) (factor : α) (s : Vector α n) : Vector α n :=
  overwrite buffer fun i _ => y.get i + factor * s.get i

def addScaledTo {n : Nat} (buffer : Vector α n) (factor : α) (s : Vector α n) : Vector α n :=
  overwrite buffer fun i old => old + factor * s.get i

def stageBuffers (m : Machine α d) : StageBuffers α d.latents :=
  let zeros := Vector.replicate d.latents 0
  m.stages.getD ⟨zeros, zeros, zeros, zeros, zeros⟩

def flow (m : Machine α d) (x : Reservoir.StageInputs (Vector α d.inputs)) : Machine α d :=
  let r := m.reservoir
  let stages := m.stageBuffers
  let first := driftInto r stages.first r.state x.start
  let probe := addScaledInto stages.probe r.state (Scalar.ratio 1 2) first
  let second := driftInto r stages.second probe x.firstMiddle
  let probe := addScaledInto probe r.state (Scalar.ratio 1 2) second
  let third := driftInto r stages.third probe x.secondMiddle
  let probe := addScaledInto probe r.state 1 third
  let fourth := driftInto r stages.fourth probe x.finish
  let state := addScaledTo r.state (Scalar.ratio 1 6) first
  let state := addScaledTo state (Scalar.ratio 2 6) second
  let state := addScaledTo state (Scalar.ratio 2 6) third
  let state := addScaledTo state (Scalar.ratio 1 6) fourth
  { m with
    reservoir := { r with state }
    stages := some ⟨first, second, third, fourth, probe⟩ }

def restore (m : Machine α d) (state : Vector α d.latents) : Machine α d :=
  { m with reservoir := { m.reservoir with state := copyInto m.reservoir.state state } }

/-- Makes one checked integration step; a step that leaves the finite numbers is taken back. -/
def propagate (m : Machine α d) (x : Reservoir.StageInputs (Given α)) :
    Outcome α Unit × Machine α d :=
  match x.check d.inputs with
  | .error error => (.error (error.within (.task .propagate)), m)
  | .ok inputs =>
      let kept := { m with spare := copyInto m.spare m.reservoir.state }
      let moved := kept.flow inputs
      match checkFiniteVector moved.reservoir.state.toArray with
      | .error error => (.error (error.within (.task .propagate)), moved.restore moved.spare)
      | .ok () => (.ok (), moved)

/-- Writes a state into one column of a record, entry by entry, up to the first entry that is not
finite. -/
def recordState {n samples : Nat} (state : Vector α n) (t : Fin samples)
    (record : Grid α n samples) : Outcome α (Grid α n samples) :=
  n.fold (fun i inside outcome => do (← outcome).store ⟨i, inside⟩ t state[i]) (.ok record)

/-- Integrates over the samples and records the state before each of them. -/
def integrate {samples : Nat} (m : Machine α d) (inputs : Vector (Vector α d.inputs) samples) :
    Outcome α (Grid α d.latents samples) × Machine α d :=
  samples.fold (fun t inside (outcome, machine) =>
    match outcome with
    | .error error => (.error error, machine)
    | .ok record =>
        let machine := if t = 0 then machine else machine.flow (.held inputs[t - 1])
        let recorded := recordState machine.reservoir.state ⟨t, inside⟩ record
        (recorded.within (.time t), machine)) (.ok Grid.zero, m)

/-- Integrates over a sequence of input samples and returns the readout before each of them. When
the integration fails the state is copied back. -/
def simulate (m : Machine α d) (inputs : List (Given α)) : Outcome α (Matrix α) × Machine α d :=
  match Reservoir.checkSamples (Reservoir.counted inputs) d.inputs with
  | .error error => (.error (error.within (.task .simulate)), m)
  | .ok samples =>
      let start := copyInto (Vector.replicate d.latents 0) m.reservoir.state
      match m.integrate samples with
      | (.error error, moved) => (.error (error.within (.task .simulate)), moved.restore start)
      | (.ok record, moved) =>
          let weights := Operand.stored ⟨d.outputs, d.latents, m.reservoir.readoutWeights⟩
          ((weights.product (.stored (.ofGrid record))).within (.task .simulate), moved)

def adopt (m : Machine α d) (outcome : Outcome α (Reservoir α d)) : Outcome α Unit × Machine α d :=
  match outcome with
  | .error error => (.error error, m)
  | .ok reservoir => (.ok (), { m with reservoir })

end Machine

end EchoState
