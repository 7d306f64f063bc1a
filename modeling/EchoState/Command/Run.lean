import EchoState.Command.Request
import EchoState.Matrix.Selector
import EchoState.Matrix.Text
import EchoState.Reservoir.Drive
import EchoState.Reservoir.FixedPoint
import EchoState.Reservoir.Machine
import EchoState.Reservoir.Text
import EchoState.Text.Quoted
import EchoState.Warping.Alignment

/-!
# Running a request

A request is carried out in stages: build the reservoir, settle it, print its readout, and simulate
a copy of it from before settling. Each stage may fail, which ends the run; what was printed before
stays. The outcome is a transcript, so that nothing here touches the outside world.
-/

namespace EchoState.Command

inductive Failure (α : Type) where
  | unknownProfile (name : String)
  | badNumber (knob : Knob) (value : α)
  | building (error : Error α)
  | probing (error : Error α)
  | settling (steps : Nat) (delta : α) (error : Error α)
  | unknownDrive (name : String)
  | driving (error : Error α)
  | simulating (error : Error α)
  | simulatingBaseline (error : Error α)
  | comparing (error : Error α)

def flagName : Knob → String
  | .tolerance => "tolerance"
  | .timescale => "timescale"
  | .gamma => "gamma"

namespace Failure

variable {α : Type}

def exitCode : Failure α → Nat
  | .unknownProfile _ | .badNumber _ _ | .building _ | .probing _ => 2
  | _ => 1

def message [Legible α] : Failure α → String
  | .unknownProfile name => "unknown --profile " ++ name ++ " (want cpu or mem)"
  | .badNumber knob value =>
      "--" ++ flagName knob ++ " must be a positive finite number, got " ++ Legible.general value
  | .building error => "build: " ++ error.message
  | .probing error => "probe: " ++ error.message
  | .settling steps delta error =>
      "after " ++ toString steps ++ " steps (delta " ++ Legible.general delta ++ "): " ++
        error.message
  | .unknownDrive name =>
      "unknown --drive " ++ Text.quoted name ++ " (want zeros or highlow)"
  | .driving error => "drive: " ++ error.message
  | .simulating error => "simulate: " ++ error.message
  | .simulatingBaseline error => "simulate baseline: " ++ error.message
  | .comparing error => "compare: " ++ error.message

end Failure

/-- What a run leaves behind: its output, the lines it logged, and why it ended early if it did. -/
structure Transcript (α : Type) where
  output : String
  log : List String
  failure : Option (Failure α)

namespace Transcript

variable {α : Type}

def failed (output : String) (log : List String) (failure : Failure α) : Transcript α :=
  ⟨output, log, some failure⟩

def after (output : String) (log : List String) (rest : Transcript α) : Transcript α :=
  ⟨output ++ rest.output, log ++ rest.log, rest.failure⟩

def exitCode (t : Transcript α) : Nat :=
  (t.failure.map Failure.exitCode).getD 0

/-- The logged lines, each marked with the name of the program. -/
def logText (t : Transcript α) : String :=
  String.join (t.log.map fun line => "reservoir: " ++ line ++ "\n")

def errorText [Legible α] (t : Transcript α) : String :=
  (t.failure.map fun failure => failure.message ++ "\n").getD ""

end Transcript

/-- The bound on attempts to settle, beyond every run that can be waited for. -/
def settlingBound : Nat := Nat.pow 2 62

def versionLine : String :=
  "reservoir version 0.1.0\n"

namespace Request

variable {α : Type} [Scalar α]

def badNumber? (request : Request α) : Option (Failure α) :=
  let numbers :=
    [ (Knob.tolerance, request.settings.tolerance)
    , (Knob.timescale, request.settings.timescale)
    , (Knob.gamma, request.settings.gamma) ]
  (numbers.find? fun (_, value) => !Scalar.finite value || Scalar.le value 0).map
    fun (knob, value) => .badNumber knob value

def base (request : Request α) (draw : Int → (count : Nat) → Vector α count) :
    Outcome α (AnyReservoir α) :=
  if request.random then
    Reservoir.ofDraws request.inputs request.outputs request.latents (draw request.seed)
      request.settings
  else Reservoir.create request.inputs request.outputs request.latents request.settings

def withProbe (request : Request α) {d : Dims} (r : Reservoir α d) : Outcome α (Reservoir α d) := do
  let weights ← Matrix.selector request.outputs request.latents
  r.assignReadoutWeights (.stored weights)

def build (request : Request α) (draw : Int → (count : Nat) → Vector α count) :
    Except (Failure α) (AnyReservoir α) :=
  if request.profile ≠ "" ∧ request.profile ≠ "cpu" ∧ request.profile ≠ "mem" then
    .error (.unknownProfile request.profile)
  else
    match request.badNumber? with
    | some failure => .error failure
    | none =>
        match request.base draw with
        | .error error => .error (.building error)
        | .ok ⟨d, r⟩ =>
            if request.probe then
              match request.withProbe r with
              | .error error => .error (.probing error)
              | .ok probed => .ok ⟨d, probed⟩
            else .ok ⟨d, r⟩

def samples (request : Request α) (channels : Nat) : Except (Failure α) (List (Array α)) :=
  match request.drive with
  | "zeros" => (Drive.zeros channels request.simulate).mapError .driving
  | "highlow" => (Drive.highLow channels request.simulate request.level).mapError .driving
  | name => .error (.unknownDrive name)

variable [Legible α]

def dumpOf (request : Request α) {d : Dims} (r : Reservoir α d) : String :=
  if request.dump then r.text else ""

variable [Distances α]

def compareWithQuiet (request : Request α) {d : Dims} (driven baseline : Machine α d)
    (readout : Matrix α) : Transcript α :=
  let log :=
    if driven.reservoir.readoutWeights.isZero then
      ["readout weights are zero, the distance is trivially 0 (try --probe)"]
    else []
  let quiet : List (Array α) := Drive.quiet d.inputs request.simulate.toNat
  match (baseline.simulate (quiet.map some)).1 with
  | .error error => .failed "" log (.simulatingBaseline error)
  | .ok reference =>
      match Warping.trajectories (.stored readout) (.stored reference) none with
      | .error error => .failed "" log (.comparing error)
      | .ok alignment => ⟨"dtw: " ++ Legible.general alignment.distance ++ "\n", log, none⟩

/-- Simulates a machine under the drive of the request and prints its readout. What it is compared
with starts from a copy that is taken before. -/
def simulateFrom (request : Request α) {d : Dims} (m : Machine α d) : Transcript α :=
  match request.samples d.inputs with
  | .error failure => .failed "" [] failure
  | .ok inputs =>
      let baseline := m.clone
      match m.simulate (inputs.map some) with
      | (.error error, _) => .failed "" [] (.simulating error)
      | (.ok readout, driven) =>
          if request.compare then
            (request.compareWithQuiet driven baseline readout).after readout.text []
          else ⟨readout.text, [], none⟩

/-- Settles a machine, prints its readout, and simulates the copy that was taken before settling. -/
def settleAndSimulate (request : Request α) {d : Dims} (m : Machine α d) : Transcript α :=
  let before := request.dumpOf m.reservoir
  let start := m.clone
  match m.settle settlingBound .never request.maxSteps with
  | (none, last) =>
      .failed before []
        (.settling settlingBound last.reservoir.lastDelta ⟨[.task .settle], .notConverged⟩)
  | (some ⟨taken, some error⟩, last) =>
      .failed before [] (.settling taken last.reservoir.lastDelta error)
  | (some ⟨taken, none⟩, settled) =>
      let numbers := settled.reservoir.readout.toList.map Legible.general
      let line := "[" ++ " ".intercalate numbers ++ "]\n"
      let printed := before ++ request.dumpOf settled.reservoir ++ line
      let log := ["converged in " ++ toString taken ++ " steps"]
      if 0 < request.simulate then (request.simulateFrom start).after printed log
      else ⟨printed, log, none⟩

def run (request : Request α) (draw : Int → (count : Nat) → Vector α count) : Transcript α :=
  match request.build draw with
  | .error failure => .failed "" [] failure
  | .ok ⟨_, r⟩ => request.settleAndSimulate (.ofReservoir r)

end Request

end EchoState.Command
