import EchoState.Decimal.Text
import EchoState.Proofs.Command.Build
import EchoState.Proofs.Command.Invocation
import EchoState.Proofs.Reservoir.Samples
import EchoState.Proofs.Warping.Acceptance
import EchoState.Proofs.Warping.Diagonal

/-!
# How a run ends

Every run of the command line falls into one of three classes. It is refused before anything is
printed; or its budget runs out while it settles, which takes a base reservoir and a budget of a
single step; or it settles and prints its readout, and then fails exactly when it is asked to
simulate and cannot: the drive is unknown or not finite, or an integration leaves the finite
numbers. A probe and a comparison never fail.
-/

namespace EchoState

namespace Command

/-- A failure of a simulation, other than of its comparison with the quiet one. -/
inductive Failure.OfSimulation {α : Type} : Failure α → Prop
  | unknownDrive (name : String) : OfSimulation (.unknownDrive name)
  | driving (error : Error α) : OfSimulation (.driving error)
  | simulating (error : Error α) : OfSimulation (.simulating error)
  | simulatingBaseline (error : Error α) : OfSimulation (.simulatingBaseline error)

theorem Failure.OfSimulation.exitCode_eq {α : Type} {failure : Failure α}
    (ofSimulation : failure.OfSimulation) : failure.exitCode = 1 := by
  cases ofSimulation <;> rfl

section Codes

variable {α : Type} {t : Transcript α}

theorem Transcript.exitCode_of_failure {failure : Failure α} (failed : t.failure = some failure) :
    t.exitCode = failure.exitCode := by
  unfold Transcript.exitCode
  rw [failed]
  rfl

theorem Transcript.exitCode_of_none (holds : t.failure = none) : t.exitCode = 0 := by
  unfold Transcript.exitCode
  rw [holds]
  rfl

end Codes

namespace Request

open Binary64

section Drives

variable {α : Type} [Scalar α] (request : Request α)

/-- The samples that the drive of a request feeds to so many channels: under the high-low drive a
channel is at the level or at its negative, and otherwise at zero. -/
def fed (channels : Nat) : List (Vector α channels) :=
  (List.range request.simulate.toNat).map fun t => Vector.ofFn fun c =>
    if request.drive = "highlow" then
      if (Drive.combination channels request.simulate.toNat t).testBit c then request.level
      else -request.level
    else 0

def quietlyFed (channels : Nat) : List (Vector α channels) :=
  List.replicate request.simulate.toNat (Vector.replicate channels 0)

/-- The drive of a request has samples, and they are finite. -/
def Drivable : Prop :=
  request.drive = "zeros" ∨ request.drive = "highlow" ∧ Scalar.finite request.level = true

variable {request}

theorem quiet_eq_quietlyFed (channels : Nat) :
    (Drive.quiet channels request.simulate.toNat : List (Array α)) =
      (request.quietlyFed channels).map Vector.toArray := by
  unfold Drive.quiet quietlyFed
  rw [List.map_const', List.map_replicate, List.length_range]
  rfl

theorem given_quiet (channels : Nat) :
    (Drive.quiet channels request.simulate.toNat : List (Array α)).map some =
      (request.quietlyFed channels).map fun x => some x.toArray := by
  rw [quiet_eq_quietlyFed, List.map_map]
  rfl

theorem given_fed (channels : Nat) :
    ((request.fed channels).map Vector.toArray).map some =
      (request.fed channels).map fun x => some x.toArray :=
  List.map_map

theorem length_fed (channels : Nat) : (request.fed channels).length = request.simulate.toNat := by
  rw [fed, List.length_map, List.length_range]

theorem length_quietlyFed (channels : Nat) :
    (request.quietlyFed channels).length = request.simulate.toNat :=
  List.length_replicate

theorem fed_of_zeros (zeros : request.drive = "zeros") (channels : Nat) :
    request.fed channels = request.quietlyFed channels := by
  have notHighLow : request.drive ≠ "highlow" := by
    rw [zeros]
    decide
  have sample : (Vector.ofFn fun _ => 0 : Vector α channels) = Vector.replicate channels 0 := by
    apply Vector.ext
    simp
  unfold fed quietlyFed
  simp only [if_neg notHighLow, sample, List.map_const', List.length_range]

omit [Scalar α] in
theorem extent_eq_ok (task : Task) (positive : 0 < request.simulate) (channels : Nat) :
    (Drive.extent task channels request.simulate : Outcome α (Nat × Nat)) =
      .ok (channels, request.simulate.toNat) :=
  if_neg (by omega)

theorem samples_of_drivable (positive : 0 < request.simulate) (drivable : request.Drivable)
    (channels : Nat) :
    request.samples channels = .ok ((request.fed channels).map Vector.toArray) := by
  unfold samples
  rcases drivable with zeros | ⟨highLow, finite⟩
  · rw [fed_of_zeros zeros, ← quiet_eq_quietlyFed, zeros]
    unfold Drive.zeros
    rw [extent_eq_ok .zeros positive]
    rfl
  · have samples : (request.fed channels).map Vector.toArray =
        (List.range request.simulate.toNat).map fun t => Drive.sample channels request.level
          (Drive.combination channels request.simulate.toNat t) := by
      unfold fed
      simp only [if_pos highLow, List.map_map]
      rfl
    rw [samples, highLow]
    unfold Drive.highLow
    simp only [extent_eq_ok .highLow positive, Outcome.ok_bind, if_pos finite]
    rfl

theorem samples_of_not_drivable (positive : 0 < request.simulate)
    (notDrivable : ¬request.Drivable) (channels : Nat) :
    ∃ failure, request.samples channels = .error failure ∧ failure.OfSimulation := by
  unfold samples
  split
  · rename_i zeros
    exact absurd (Or.inl zeros) notDrivable
  · rename_i highLow
    have notFinite : ¬Scalar.finite request.level = true := fun finite =>
      notDrivable (Or.inr ⟨highLow, finite⟩)
    have refused : Drive.highLow (channels : Int) request.simulate request.level =
        .error ⟨[.task .highLow, .level request.level], .notFinite⟩ := by
      unfold Drive.highLow
      simp only [extent_eq_ok .highLow positive, Outcome.ok_bind, if_neg notFinite]
    rw [refused]
    exact ⟨_, rfl, .driving _⟩
  · exact ⟨_, rfl, .unknownDrive _⟩

end Drives

/-! ## Settling -/

section Settling

variable (request : Request Float) {d : Dims} (r : Reservoir Float d)

/-- The budget runs out while a reservoir settles: it was drawn, it may make a single step, and that
step changes some entry by the tolerance or more. -/
def FailsToSettle : Prop :=
  request.random = true ∧ request.maxSteps = 1 ∧
    ∃ i, Scalar.le request.settings.tolerance (Scalar.abs (Scalar.tanh (r.bias.get i))) = true

def readoutLine : String :=
  "[" ++ " ".intercalate (r.readout.toList.map Legible.general) ++ "]\n"

variable {request} {r : Reservoir Float request.dims}

theorem not_quiet_iff (built : request.Built r) : ¬r.Quiet ↔
    ∃ i, Scalar.le request.settings.tolerance (Scalar.abs (Scalar.tanh (r.bias.get i))) = true := by
  have positive : Scalar.lt 0 request.settings.tolerance :=
    built.settings_eq ▸ built.atRest.tolerance_pos
  have toleranceNumber : Scalar.isNaN request.settings.tolerance = false :=
    (OrderedScalar.numbers_of_le (Scalar.le_of_lt positive)).2
  have sizeNumber (i : Fin request.dims.latents) :
      Scalar.isNaN (Scalar.abs (Scalar.tanh (r.bias.get i))) = false := by
    rw [MeasuredScalar.isNaN_abs]
    exact Scalar.isNaN_of_finite (ActivationScalar.finite_tanh (built.atRest.bias_finite i))
  unfold Reservoir.Quiet
  rw [built.settings_eq, not_forall]
  refine exists_congr fun i => ⟨Scalar.le_of_not_lt (sizeNumber i) toleranceNumber, ?_⟩
  exact fun atLeast below => (OrderedScalar.lt_iff.mp below).2 atLeast

/-- A reservoir that fails to settle takes its one step. -/
theorem settle_of_fails (built : request.Built r) (fails : request.FailsToSettle r) :
    ∃ last, (Machine.ofReservoir r).settle settlingBound .never request.maxSteps =
        (some ⟨1, some ⟨[.task .settle], .notConverged⟩⟩, last) ∧ last.reservoir = r.afterOne := by
  obtain ⟨_, single, loud⟩ := fails
  rw [single]
  exact Machine.settle_of_reservoir
    (built.atRest.settle_one_of_not_quiet ((not_quiet_iff built).mpr loud) (by decide))

theorem settle_of_not_fails (built : request.Built r) (holds : ¬request.FailsToSettle r) :
    ∃ taken settled, (Machine.ofReservoir r).settle settlingBound .never request.maxSteps =
      (some ⟨taken, none⟩, settled) := by
  by_cases quiet : r.Quiet
  · have settles : r.settle settlingBound .never request.maxSteps = (some ⟨1, none⟩, r.afterOne) :=
      built.atRest.settle_of_quiet quiet (by decide) request.maxSteps
    obtain ⟨settled, ends, _⟩ := Machine.settle_of_reservoir (m := .ofReservoir r) settles
    exact ⟨1, settled, ends⟩
  · have loud := (not_quiet_iff built).mp quiet
    have random : request.random = true := by
      by_contra notRandom
      exact quiet (built.quiet (Bool.eq_false_iff.mpr notRandom))
    have budget : request.maxSteps ≠ 1 := fun single => holds ⟨random, single, loud⟩
    have settles : r.settle settlingBound .never request.maxSteps = (some ⟨2, none⟩, r.afterTwo) :=
      built.atRest.settle_of_not_quiet quiet (by decide) budget
    obtain ⟨settled, ends, _⟩ := Machine.settle_of_reservoir (m := .ofReservoir r) settles
    exact ⟨2, settled, ends⟩

end Settling

/-! ## Simulations -/

section Simulations

variable (request : Request Float) {d : Dims} (r : Reservoir Float d)

/-- A simulation is asked for and fails: its drive is unknown or has no finite samples, or an
integration that it needs leaves the finite numbers. -/
def SimulationFails : Prop :=
  0 < request.simulate ∧
    (request.drive ∉ ["zeros", "highlow"] ∨
      (request.drive = "highlow" ∧ ¬Scalar.finite request.level = true) ∨
      r.Diverges (request.fed d.inputs) ∨
      (request.compare = true ∧ r.Diverges (request.quietlyFed d.inputs)))

/-- The readouts under the drive of a request, one a column, from the present state on. -/
def trajectory {α : Type} [Scalar α] (request : Request α) {d : Dims} (r : Reservoir α d) :
    Matrix α :=
  r.recorded request.simulate.toNat fun t =>
    r.flowAlong r.state ((request.fed d.inputs).take t)

def quietTrajectory {α : Type} [Scalar α] (request : Request α) {d : Dims} (r : Reservoir α d) :
    Matrix α :=
  r.recorded request.simulate.toNat fun t =>
    r.flowAlong r.state ((request.quietlyFed d.inputs).take t)

variable {request r}

theorem simulationFails_iff (positive : 0 < request.simulate) : request.SimulationFails r ↔
    ¬request.Drivable ∨ r.Diverges (request.fed d.inputs) ∨
      (request.compare = true ∧ r.Diverges (request.quietlyFed d.inputs)) := by
  have notDrivable : ¬request.Drivable ↔ request.drive ∉ ["zeros", "highlow"] ∨
      (request.drive = "highlow" ∧ ¬Scalar.finite request.level = true) := by
    unfold Drivable
    by_cases zeros : request.drive = "zeros"
    · simp [zeros]
    · by_cases highLow : request.drive = "highlow"
      · simp [highLow]
      · simp [zeros, highLow]
  unfold SimulationFails
  rw [notDrivable, or_assoc]
  exact and_iff_right positive

theorem finite_fed (drivable : request.Drivable) {channels : Nat} :
    ∀ x ∈ request.fed channels, AllFinite x.toArray := by
  intro x isFed
  obtain ⟨t, _, rfl⟩ := List.mem_map.mp isFed
  rw [allFinite_vector_iff]
  intro c
  rw [Vector.get_ofFn]
  rcases drivable with zeros | ⟨highLow, finite⟩
  · rw [if_neg (by rw [zeros]; decide)]
    exact MeasuredScalar.finite_zero
  · rw [if_pos highLow]
    split
    · exact finite
    · exact finite_neg finite

theorem finite_quietlyFed {channels : Nat} :
    ∀ x ∈ request.quietlyFed channels, AllFinite x.toArray := by
  intro x isFed
  rw [List.eq_of_mem_replicate isFed]
  exact allFinite_replicate channels MeasuredScalar.finite_zero

variable {m driven : Machine Float d}

theorem simulate_fed (drivable : request.Drivable)
    (stays : ¬m.reservoir.Diverges (request.fed d.inputs)) :
    (m.simulate (((request.fed d.inputs).map Vector.toArray).map some)).1 =
      .ok (request.trajectory m.reservoir) := by
  rw [(Machine.simulate_of_not_diverges (finite_fed drivable) (given_fed d.inputs) stays).1,
    length_fed]
  rfl

theorem simulate_quietlyFed (stays : ¬m.reservoir.Diverges (request.quietlyFed d.inputs)) :
    (m.simulate ((Drive.quiet d.inputs request.simulate.toNat).map some)).1 =
      .ok (request.quietTrajectory m.reservoir) := by
  rw [(Machine.simulate_of_not_diverges finite_quietlyFed (given_quiet d.inputs) stays).1,
    length_quietlyFed]
  rfl

/-- A comparison fails when the integration under the quiet drive leaves the finite numbers. -/
theorem compareWithQuiet_of_diverges {readout : Matrix Float}
    (diverges : m.reservoir.Diverges (request.quietlyFed d.inputs)) :
    ∃ failure, (request.compareWithQuiet driven m readout).failure = some failure ∧
      failure.OfSimulation := by
  obtain ⟨error, failed⟩ :=
    Machine.simulate_of_diverges finite_quietlyFed (given_quiet d.inputs) diverges
  unfold compareWithQuiet
  simp only [failed]
  exact ⟨_, rfl, .simulatingBaseline error⟩

/-- A comparison that does not fail has aligned the two readouts. -/
theorem compareWithQuiet_of_not_diverges {readout : Matrix Float}
    (stays : ¬m.reservoir.Diverges (request.quietlyFed d.inputs)) {alignment}
    (aligned : Warping.trajectories (.stored readout)
      (.stored (request.quietTrajectory m.reservoir)) none = .ok alignment) :
    (request.compareWithQuiet driven m readout).failure = none ∧
      (request.compareWithQuiet driven m readout).output =
        "dtw: " ++ Legible.general alignment.distance ++ "\n" := by
  unfold compareWithQuiet
  simp only [simulate_quietlyFed stays, aligned, and_self]

/-- What a simulation that stays finite prints is its readout, and then the comparison. -/
theorem simulateFrom_of_not_diverges (positive : 0 < request.simulate)
    (drivable : request.Drivable) (stays : ¬m.reservoir.Diverges (request.fed d.inputs)) :
    ∃ driven, request.simulateFrom m = if request.compare then
      (request.compareWithQuiet driven m.clone (request.trajectory m.reservoir)).after
        (request.trajectory m.reservoir).text []
      else ⟨(request.trajectory m.reservoir).text, [], none⟩ := by
  have ran := simulate_fed drivable stays
  unfold simulateFrom
  rw [samples_of_drivable positive drivable]
  dsimp only
  generalize m.simulate (((request.fed d.inputs).map Vector.toArray).map some) = simulated at ran ⊢
  obtain ⟨outcome, driven⟩ := simulated
  obtain rfl : outcome = _ := ran
  exact ⟨driven, rfl⟩

/-- A simulation that fails does so for its drive or for an integration. -/
theorem simulateFrom_of_fails (positive : 0 < request.simulate)
    (fails : request.SimulationFails m.reservoir) :
    ∃ failure, (request.simulateFrom m).failure = some failure ∧ failure.OfSimulation := by
  rw [simulationFails_iff positive] at fails
  by_cases drivable : request.Drivable
  · by_cases driven : m.reservoir.Diverges (request.fed d.inputs)
    · obtain ⟨error, failed⟩ :=
        Machine.simulate_of_diverges (finite_fed drivable) (given_fed d.inputs) driven
      unfold simulateFrom
      rw [samples_of_drivable positive drivable]
      dsimp only
      generalize m.simulate (((request.fed d.inputs).map Vector.toArray).map some) = simulated
        at failed ⊢
      obtain ⟨outcome, left⟩ := simulated
      obtain rfl : outcome = _ := failed
      exact ⟨_, rfl, .simulating error⟩
    · obtain ⟨compare, quiet⟩ := (fails.resolve_left (not_not.mpr drivable)).resolve_left driven
      obtain ⟨after, ran⟩ := simulateFrom_of_not_diverges positive drivable driven
      rw [ran, if_pos compare]
      exact compareWithQuiet_of_diverges (m := m.clone) quiet
  · obtain ⟨failure, failed, ofSimulation⟩ := samples_of_not_drivable positive drivable d.inputs
    unfold simulateFrom
    simp only [failed]
    exact ⟨failure, rfl, ofSimulation⟩

/-- A comparison that succeeds has counted the cells of what it compares with. -/
theorem count_of_compareWithQuiet {readout : Matrix Float}
    (stays : ¬m.reservoir.Diverges (request.quietlyFed d.inputs))
    (holds : (request.compareWithQuiet driven m readout).failure = none) :
    d.outputs * request.simulate.toNat < wordLimit := by
  unfold compareWithQuiet at holds
  simp only [simulate_quietlyFed stays] at holds
  split at holds
  · cases holds
  · rename_i aligned
    obtain ⟨_, _, _, _, _, _, _, _, read, _⟩ := Warping.trajectories_eq_ok_iff.mp aligned
    exact (Warping.exists_samplesOf_of_columns read).2.1

/-- Every other simulation whose readout can be counted succeeds. -/
theorem simulateFrom_of_not_fails (positive : 0 < request.simulate)
    (fits : d.outputs * request.simulate.toNat < wordLimit)
    (holds : ¬request.SimulationFails m.reservoir) : (request.simulateFrom m).failure = none := by
  rw [simulationFails_iff positive, not_or, not_not, not_or, not_and] at holds
  obtain ⟨drivable, driven, quiet⟩ := holds
  obtain ⟨after, ran⟩ := simulateFrom_of_not_diverges positive drivable driven
  rw [ran]
  split
  · have some : request.simulate.toNat ≠ 0 := by omega
    exact (compareWithQuiet_of_not_diverges (m := m.clone) (quiet ‹_›)
      (Warping.trajectories_stored fits fits _ _ some some)).1
  · rfl

theorem not_simulationFails_of_holds (positive : 0 < request.simulate)
    (holds : (request.simulateFrom m).failure = none) : ¬request.SimulationFails m.reservoir := by
  intro fails
  obtain ⟨failure, failed, _⟩ := simulateFrom_of_fails positive fails
  rw [holds] at failed
  cases failed

end Simulations

/-! ## Runs -/

/-- The run of a request builds a reservoir and settles it. -/
structure Settles {α : Type} [Scalar α] [Distances α] (request : Request α)
    (draw : Int → (count : Nat) → Vector α count) {d : Dims} (r : Reservoir α d) (taken : Nat)
    (settled : Machine α d) : Prop where
  build_eq : request.build draw = .ok ⟨d, r⟩
  settle_eq : (Machine.ofReservoir r).settle settlingBound .never request.maxSteps =
    (some ⟨taken, none⟩, settled)

/-- What a run prints before it simulates: the dumps and the readout. -/
def printedBefore (request : Request Float) {d : Dims} (r settled : Reservoir Float d) : String :=
  (if request.dump then r.text else "") ++ (if request.dump then settled.text else "") ++
    readoutLine settled

/-- A run that settles the reservoir that it has built goes on to the simulation of that reservoir,
and not of the settled one. -/
theorem Settles.run_eq {request : Request Float} {draw : Int → (count : Nat) → Vector Float count}
    {d : Dims} {r : Reservoir Float d} {settled : Machine Float d} {taken : Nat}
    (settles : request.Settles draw r taken settled) :
    request.run draw = if 0 < request.simulate then
      (request.simulateFrom (.ofReservoir r)).after (request.printedBefore r settled.reservoir)
        ["converged in " ++ toString taken ++ " steps"]
      else ⟨request.printedBefore r settled.reservoir,
        ["converged in " ++ toString taken ++ " steps"], none⟩ := by
  unfold run settleAndSimulate
  simp only [settles.build_eq, settles.settle_eq]
  rfl

theorem failure_eq_none_of_exitCode {α : Type} {t : Transcript α} (succeeds : t.exitCode = 0) :
    t.failure = none := by
  cases failed : t.failure with
  | none => rfl
  | some failure =>
      rw [Transcript.exitCode_of_failure failed] at succeeds
      cases failure <;> cases succeeds

/-- A run that succeeds has settled the reservoir that it has built. -/
theorem exists_settles_of_exitCode {request : Request Float}
    {draw : Int → (count : Nat) → Vector Float count} (succeeds : (request.run draw).exitCode = 0) :
    ∃ (d : Dims) (r : Reservoir Float d) (taken : Nat) (settled : Machine Float d),
      request.Settles draw r taken settled := by
  have holds := failure_eq_none_of_exitCode succeeds
  unfold run at holds
  cases build : request.build draw with
  | error failure =>
      rw [build] at holds
      cases holds
  | ok built =>
      obtain ⟨d, r⟩ := built
      rw [build] at holds
      replace holds : (request.settleAndSimulate (.ofReservoir r)).failure = none := holds
      unfold settleAndSimulate at holds
      rcases ended : (Machine.ofReservoir r).settle settlingBound .never request.maxSteps with
        ⟨_ | ⟨taken, _ | error⟩, last⟩
      · rw [ended] at holds
        cases holds
      · exact ⟨d, r, taken, last, build, ended⟩
      · rw [ended] at holds
        cases holds

/-- A run whose reservoir cannot be built leaves nothing but this failure behind. -/
theorem run_of_refused {request : Request Float} (draw : Int → (count : Nat) → Vector Float count)
    (refused : request.Refused) :
    ∃ failure, request.run draw = .failed "" [] failure ∧ failure.exitCode = 2 ∧
      ∀ error, failure ≠ .probing error ∧ failure ≠ .comparing error := by
  obtain ⟨failure, failed, code, notProbing⟩ := build_of_refused draw refused
  refine ⟨failure, ?_, code, fun error => ⟨notProbing error, ?_⟩⟩
  · unfold run
    simp only [failed]
  · rintro rfl
    cases code

section Runs

variable {request : Request Float} {draw : Int → (count : Nat) → Vector Float count}
  {r : Reservoir Float request.dims} (build : request.build draw = .ok ⟨request.dims, r⟩)
  (built : request.Built r)

include build built

/-- A run that fails to settle has printed at most the first dump. -/
theorem run_of_fails_to_settle (fails : request.FailsToSettle r) :
    request.run draw = .failed (if request.dump then r.text else "") []
      (.settling 1 r.afterOne.lastDelta ⟨[.task .settle], .notConverged⟩) := by
  obtain ⟨last, ends, reservoir_eq⟩ := settle_of_fails built fails
  unfold run settleAndSimulate
  simp only [build, ends, reservoir_eq]
  rfl

/-- Every other run prints its readout, and then fails exactly when its simulation does. -/
theorem run_of_settles (fits : request.Fits) (settles : ¬request.FailsToSettle r) :
    ∃ taken settled rest more,
      (Machine.ofReservoir r).settle settlingBound .never request.maxSteps =
          (some ⟨taken, none⟩, settled) ∧
        (request.run draw).output = request.printedBefore r settled.reservoir ++ rest ∧
        (request.run draw).log = ("converged in " ++ toString taken ++ " steps") :: more ∧
        (request.SimulationFails r → ∃ failure,
          (request.run draw).failure = some failure ∧ failure.OfSimulation) ∧
        (¬request.SimulationFails r → (request.run draw).failure = none) := by
  obtain ⟨taken, settled, ends⟩ := settle_of_not_fails built settles
  rw [Settles.run_eq ⟨build, ends⟩]
  by_cases positive : 0 < request.simulate
  · rw [if_pos positive]
    exact ⟨taken, settled, _, _, ends, rfl, rfl,
      simulateFrom_of_fails (m := .ofReservoir r) positive,
      simulateFrom_of_not_fails (m := .ofReservoir r) positive fits.readouts⟩
  · rw [if_neg positive]
    exact ⟨taken, settled, "", [], ends, String.append_empty.symm, rfl,
      fun fails => absurd fails.1 positive, fun _ => rfl⟩

end Runs

/-- How a run that a command line asks for ends is decided by the request and the reservoir that it
builds. -/
theorem run_classified {arguments : List String} {request : Request Float}
    (parsed : Invocation.ofArguments arguments = .ok (.run request)) (fits : request.Fits) :
    let transcript := request.run Draws.uniforms
    (request.help = false ∧ request.version = false) ∧
      (transcript.exitCode = 2 ↔ request.Refused) ∧
      (request.Refused → transcript.output = "" ∧ transcript.log = []) ∧
      (request.NumbersAccepted → Settings.resolve
        [⟨.tolerance, request.settings.tolerance⟩, ⟨.timescale, request.settings.timescale⟩,
          ⟨.gamma, request.settings.gamma⟩] = .ok request.settings) ∧
      (∀ error, transcript.failure ≠ some (.probing error) ∧
        transcript.failure ≠ some (.comparing error)) ∧
      (¬request.Refused → ∃ r : Reservoir Float request.dims,
        request.build Draws.uniforms = .ok ⟨request.dims, r⟩ ∧
        ((∃ steps delta error, transcript.failure = some (.settling steps delta error)) ↔
          request.FailsToSettle r) ∧
        (request.FailsToSettle r → transcript.exitCode = 1 ∧
          transcript.output = (if request.dump then r.text else "") ∧ transcript.log = []) ∧
        (¬request.FailsToSettle r → ∃ taken settled rest more,
          (Machine.ofReservoir r).settle settlingBound .never request.maxSteps =
            (some ⟨taken, none⟩, settled) ∧
          transcript.output =
            (if request.dump then r.text else "") ++
              (if request.dump then settled.reservoir.text else "") ++
              readoutLine settled.reservoir ++ rest ∧
          transcript.log = ("converged in " ++ toString taken ++ " steps") :: more ∧
          (transcript.exitCode = 1 ↔ request.SimulationFails r) ∧
          (transcript.exitCode = 0 ↔ ¬request.SimulationFails r))) := by
  intro transcript
  obtain ⟨reading, -, asks, same⟩ := Invocation.ofArguments_eq_run_iff.mp parsed
  refine ⟨same ▸ ⟨asks.help_eq, asks.version_eq⟩, ?_⟩
  by_cases refused : request.Refused
  · obtain ⟨failure, ended, code, others⟩ := run_of_refused Draws.uniforms refused
    rw [show transcript = .failed "" [] failure from ended]
    refine ⟨iff_of_true code refused, fun _ => ⟨rfl, rfl⟩, resolve_numbers,
      fun error => ⟨fun same => (others error).1 (Option.some.inj same),
        fun same => (others error).2 (Option.some.inj same)⟩,
      fun notRefused => absurd refused notRefused⟩
  · obtain ⟨r, build, built⟩ := build_eq_ok fits refused Draws.isUniform_uniforms
    by_cases stuck : request.FailsToSettle r
    · have ended : transcript = _ := run_of_fails_to_settle build built stuck
      rw [ended]
      refine ⟨iff_of_false (show (1 : Nat) ≠ 2 by decide) refused,
        fun is => absurd is refused, resolve_numbers,
        fun error => ⟨nofun, nofun⟩, fun _ => ⟨r, build, iff_of_true ⟨_, _, _, rfl⟩ stuck,
          fun _ => ⟨rfl, rfl, rfl⟩, fun settles => absurd stuck settles⟩⟩
    · obtain ⟨taken, settled, rest, more, ends, output, log, fails, holds⟩ :=
        run_of_settles build built fits stuck
      by_cases lost : request.SimulationFails r
      · obtain ⟨failure, failed, ofSimulation⟩ := fails lost
        have code : transcript.exitCode = 1 :=
          (Transcript.exitCode_of_failure failed).trans ofSimulation.exitCode_eq
        rw [code, failed]
        refine ⟨iff_of_false (by decide) refused, fun is => absurd is refused, resolve_numbers, ?_,
          fun _ => ⟨r, build, iff_of_false ?_ stuck, fun is => absurd is stuck, fun _ =>
            ⟨taken, settled, rest, more, ends, output, log, iff_of_true rfl lost,
              iff_of_false (by decide) (not_not.mpr lost)⟩⟩⟩
        · intro error
          cases ofSimulation <;> exact ⟨nofun, nofun⟩
        · rintro ⟨steps, delta, error, same⟩
          rw [Option.some.inj same] at ofSimulation
          cases ofSimulation
      · have none := holds lost
        have code : transcript.exitCode = 0 := Transcript.exitCode_of_none none
        rw [code, none]
        exact ⟨iff_of_false (by decide) refused, fun is => absurd is refused, resolve_numbers,
          fun error => ⟨nofun, nofun⟩, fun _ => ⟨r, build, iff_of_false nofun stuck,
            fun is => absurd is stuck, fun _ => ⟨taken, settled, rest, more, ends, output, log,
              iff_of_false (by decide) lost, iff_of_true rfl lost⟩⟩⟩

/-- A probed base reservoir that settles and is then asked for a drive that there is none of. -/
theorem run_classified_unknown_drive :
    let arguments := ["--random", "--probe", "--simulate", "3", "--drive=square"]
    let request : Request Float :=
      { Request.standard with random := true, probe := true, simulate := 3, drive := "square" }
    Invocation.ofArguments arguments = .ok (.run request) ∧ request.Fits ∧ ¬request.Refused ∧
      (request.run Draws.uniforms).exitCode = 1 ∧
      ∃ (taken : Nat) (more : List String), (request.run Draws.uniforms).log =
        ("converged in " ++ toString taken ++ " steps") :: more := by
  intro arguments request
  have parsed : Invocation.ofArguments arguments = .ok (.run request) := by
    with_unfolding_all rfl
  have fits : request.Fits := ⟨⟨by decide, by decide, by decide⟩, by decide, by decide⟩
  have accepted : request.NumbersAccepted := by
    unfold NumbersAccepted
    decide +kernel
  have notRefused : ¬request.Refused := not_refused_iff.mpr
    ⟨List.mem_cons_self .., accepted, by decide, by decide, by decide⟩
  obtain ⟨_, _, _, _, _, classified⟩ := run_classified parsed fits
  obtain ⟨r, _, _, _, settles⟩ := classified notRefused
  have unlimited : ¬request.FailsToSettle r := fun stuck => absurd stuck.2.1 (by decide)
  obtain ⟨taken, settled, rest, more, _, _, log, code, _⟩ := settles unlimited
  exact ⟨parsed, fits, notRefused, code.mpr ⟨by decide, Or.inl (by decide)⟩, taken, more, log⟩

end Request

end Command

end EchoState
