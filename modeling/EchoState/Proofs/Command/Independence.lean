import EchoState.Proofs.Command.Comparison
import EchoState.Proofs.Reservoir.Tolerance

/-!
# Settling and simulating do not meet

A run settles the reservoir that it has built, and then simulates the reservoir that it has built:
the simulation starts from the state before settling. Requests that differ in the tolerance, in the
budget of steps and in the dump build the same reservoir under two tolerances, so where both get
past settling their simulations are one and the same, and the first readout of it is zero.
-/

namespace EchoState.Command.Request

/-- The requests differ at most in the tolerance, in the budget of steps and in the dump. -/
def AgreesBesideSettling {α : Type} (first second : Request α) : Prop :=
  second = { first with
    settings := { first.settings with tolerance := second.settings.tolerance }
    maxSteps := second.maxSteps
    dump := second.dump }

section Building

variable {α : Type} [Scalar α] {first second : Request α}
  {draw : Int → (count : Nat) → Vector α count} (agrees : first.AgreesBesideSettling second)

include agrees

theorem base_withTolerance :
    second.base draw =
      (first.base draw).map (AnyReservoir.withTolerance second.settings.tolerance) := by
  rw [agrees]
  unfold base
  split
  · exact Reservoir.ofDraws_withTolerance _ _ _ _ _ first.settings
  · exact Reservoir.create_withTolerance _ _ _ _ first.settings

theorem withProbe_withTolerance {d : Dims} (r : Reservoir α d) :
    second.withProbe (r.withTolerance second.settings.tolerance) =
      (first.withProbe r).map (Reservoir.withTolerance second.settings.tolerance) := by
  rw [agrees]
  exact Outcome.bind_eq_map_same fun weights =>
    r.assignReadoutWeights_withTolerance _ (.stored weights)

/-- What the two requests build differs in the tolerance only. -/
theorem build_withTolerance {built built' : AnyReservoir α} (build : first.build draw = .ok built)
    (build' : second.build draw = .ok built') :
    built' = built.withTolerance second.settings.tolerance := by
  have sameProbe : second.probe = first.probe := by rw [agrees]
  obtain ⟨d, r, base, parts⟩ := base_of_build build
  obtain ⟨d', r', base', parts'⟩ := base_of_build build'
  rw [base_withTolerance agrees, base] at base'
  cases base'
  rw [sameProbe] at parts'
  rcases parts with ⟨noProbe, rfl⟩ | ⟨probe, probed, withProbe, rfl⟩
  · rcases parts' with ⟨_, rfl⟩ | ⟨probe, _⟩
    · rfl
    · exact absurd (noProbe.symm.trans probe) Bool.false_ne_true
  · rcases parts' with ⟨noProbe, _⟩ | ⟨_, probed', withProbe', rfl⟩
    · exact absurd (noProbe.symm.trans probe) Bool.false_ne_true
    · rw [withProbe_withTolerance agrees, withProbe] at withProbe'
      cases withProbe'
      rfl

end Building

section Simulating

variable {α : Type} [Scalar α]

/-- A machine answers the same under another tolerance, and keeps that tolerance. -/
theorem simulate_withTolerance {d : Dims} (r : Reservoir α d) (tolerance : α)
    (inputs : List (Given α)) :
    ((Machine.ofReservoir (r.withTolerance tolerance)).simulate inputs).1 =
        ((Machine.ofReservoir r).simulate inputs).1 ∧
      ((Machine.ofReservoir (r.withTolerance tolerance)).simulate inputs).2.reservoir =
        ((Machine.ofReservoir r).simulate inputs).2.reservoir.withTolerance tolerance := by
  obtain ⟨answered, left⟩ := (Machine.ofReservoir r).simulate_eq inputs
  obtain ⟨answered', left'⟩ :=
    (Machine.ofReservoir (r.withTolerance tolerance)).simulate_eq inputs
  rw [answered, answered', left, left']
  unfold Machine.ofReservoir
  rw [Reservoir.simulate_withTolerance]
  cases r.simulate inputs with
  | error error => exact ⟨rfl, rfl⟩
  | ok simulated => exact ⟨rfl, rfl⟩

variable [Distances α] [Legible α]

/-- What a comparison reads of the machines: the readout weights of one and the answer of the
other. -/
theorem compareWithQuiet_congr (request : Request α) {d : Dims}
    {driven driven' baseline baseline' : Machine α d}
    (weights : driven'.reservoir.readoutWeights = driven.reservoir.readoutWeights)
    (answers : ∀ inputs, (baseline'.simulate inputs).1 = (baseline.simulate inputs).1)
    (readout : Matrix α) :
    request.compareWithQuiet driven' baseline' readout =
      request.compareWithQuiet driven baseline readout := by
  unfold compareWithQuiet
  dsimp only
  rw [weights, answers]

/-- A simulation does not read the tolerance of the reservoir. -/
theorem simulateFrom_withTolerance (request : Request α) {d : Dims} (r : Reservoir α d)
    (tolerance : α) :
    request.simulateFrom (.ofReservoir (r.withTolerance tolerance)) =
      request.simulateFrom (.ofReservoir r) := by
  unfold simulateFrom
  cases request.samples d.inputs with
  | error failure => rfl
  | ok inputs =>
      dsimp only
      obtain ⟨same, kept⟩ := simulate_withTolerance r tolerance (inputs.map some)
      generalize (Machine.ofReservoir r).simulate (inputs.map some) = ran at same kept ⊢
      generalize (Machine.ofReservoir (r.withTolerance tolerance)).simulate (inputs.map some) = ran'
        at same kept ⊢
      obtain ⟨outcome, driven⟩ := ran
      obtain ⟨outcome', driven'⟩ := ran'
      obtain rfl : outcome' = outcome := same
      have weights : driven'.reservoir.readoutWeights = driven.reservoir.readoutWeights := by
        rw [show driven'.reservoir = driven.reservoir.withTolerance tolerance from kept]
        rfl
      cases outcome' with
      | error error => rfl
      | ok readout =>
          have compared : request.compareWithQuiet driven'
              (Machine.ofReservoir (r.withTolerance tolerance)).clone readout =
                request.compareWithQuiet driven (Machine.ofReservoir r).clone readout :=
            request.compareWithQuiet_congr weights
              (fun inputs => (simulate_withTolerance r tolerance inputs).1) readout
          dsimp only
          rw [compared]

theorem simulateFrom_agrees {first second : Request α} (agrees : first.AgreesBesideSettling second)
    {d : Dims} (m : Machine α d) : second.simulateFrom m = first.simulateFrom m := by
  rw [agrees]
  rfl

end Simulating

/-! ## The trajectory -/

section Trajectory

variable {request : Request Float} {d : Dims} {r : Reservoir Float d}

theorem output_of_compareWithQuiet {driven baseline : Machine Float d} {readout : Matrix Float}
    (holds : (request.compareWithQuiet driven baseline readout).failure = none) :
    ∃ distance : Float, (request.compareWithQuiet driven baseline readout).output =
      "dtw: " ++ Legible.general distance ++ "\n" := by
  unfold compareWithQuiet at holds ⊢
  dsimp only at holds ⊢
  split at holds
  · cases holds
  · split at holds
    · cases holds
    · exact ⟨_, rfl⟩

/-- A simulation that succeeds prints the trajectory, and then a distance if it was asked for. -/
theorem output_of_simulateFrom (positive : 0 < request.simulate)
    (holds : (request.simulateFrom (.ofReservoir r)).failure = none) :
    ∃ distance : Float, (request.simulateFrom (.ofReservoir r)).output =
      (request.trajectory r).text ++
        if request.compare then "dtw: " ++ Legible.general distance ++ "\n" else "" := by
  have succeeds := not_simulationFails_of_holds positive holds
  rw [simulationFails_iff positive, not_or, not_not, not_or] at succeeds
  obtain ⟨drivable, driven, _⟩ := succeeds
  obtain ⟨after, ran⟩ := simulateFrom_of_not_diverges positive drivable driven
  rw [ran] at holds ⊢
  split
  · rename_i compare
    rw [if_pos compare] at holds
    obtain ⟨distance, output⟩ := output_of_compareWithQuiet holds
    exact ⟨distance, congrArg (_ ++ ·) output⟩
  · exact ⟨0, String.append_empty.symm⟩

/-- From a state of zeros that is read with finite weights, the first readout is zero. -/
theorem get_trajectory_zero (state : r.state = Vector.replicate d.latents 0)
    (weights : AllFinite r.readoutWeights.values)
    (fits : d.outputs * request.simulate.toNat < wordLimit) (i : Fin d.outputs)
    {t : Fin request.simulate.toNat} (first : t.val = 0) :
    (request.trajectory r).sheet.get i t = 0 := by
  refine (Sheet.get_mul fits _ _ i t).trans (Scalar.sumWhere_of_isZero _ _ fun k => ?_)
  rw [Sheet.get_whole, Grid.get_ofFn, first]
  dsimp only
  rw [List.take_zero]
  have entry : (r.flowAlong r.state []).get k = 0 :=
    (congrArg (Vector.get · k) state).trans (Vector.getElem_replicate k.isLt)
  rw [entry]
  exact SignedZeroScalar.isZero_mul_right (Sheet.finite_get MeasuredScalar.finite_zero weights i k)
    Scalar.isZero_zero

end Trajectory

/-! ## Two runs -/

/-- Requests that differ at most in the tolerance, in the budget and in the dump, and that both get
past settling, end with one and the same simulation: it prints the same lines, fails in the same
way, and the runs have the same exit code. It is the simulation of the reservoir as it was built;
where it succeeds it prints a trajectory, whose first column is zero as long as its cells can be
counted, and the distance if one was asked for. -/
theorem simulation_regardless_of_settling {first second : Request Float}
    {draw : Int → (count : Nat) → Vector Float count}
    (agrees : first.AgreesBesideSettling second) (positive : 0 < first.simulate)
    {d d' : Dims} {r : Reservoir Float d} {settled : Machine Float d} {r' : Reservoir Float d'}
    {settled' : Machine Float d'} {taken taken' : Nat}
    (settles : first.Settles draw r taken settled)
    (settles' : second.Settles draw r' taken' settled') :
    first.run draw = (first.simulateFrom (.ofReservoir r)).after
        (first.printedBefore r settled.reservoir)
        ["converged in " ++ toString taken ++ " steps"] ∧
      second.run draw = (first.simulateFrom (.ofReservoir r)).after
        (second.printedBefore r' settled'.reservoir)
        ["converged in " ++ toString taken' ++ " steps"] ∧
      (first.run draw).failure = (second.run draw).failure ∧
      (first.run draw).exitCode = (second.run draw).exitCode ∧
      ((first.run draw).exitCode = 0 →
        (∃ distance : Float, (first.simulateFrom (.ofReservoir r)).output =
          (first.trajectory r).text ++
            if first.compare then "dtw: " ++ Legible.general distance ++ "\n" else "") ∧
        (d.outputs * first.simulate.toNat < wordLimit →
          ∀ (i : Fin d.outputs) (t : Fin first.simulate.toNat), t.val = 0 →
            (first.trajectory r).sheet.get i t = 0)) := by
  have positive' : 0 < second.simulate := by
    rw [agrees]
    exact positive
  have same : second.simulateFrom (.ofReservoir r') = first.simulateFrom (.ofReservoir r) := by
    have built := build_withTolerance agrees settles.build_eq settles'.build_eq
    cases built
    rw [simulateFrom_agrees agrees]
    exact simulateFrom_withTolerance first r _
  have ran := settles.run_eq
  have ran' := settles'.run_eq
  rw [if_pos positive] at ran
  rw [if_pos positive', same] at ran'
  have failures : (first.run draw).failure = (second.run draw).failure := by
    rw [ran, ran']
    rfl
  refine ⟨ran, ran', failures, congrArg (fun failure => (failure.map Failure.exitCode).getD 0)
    failures, fun succeeds => ⟨?_, fun fits i t start => ?_⟩⟩
  · have holds := failure_eq_none_of_exitCode succeeds
    rw [ran] at holds
    exact output_of_simulateFrom positive holds
  · obtain ⟨state, weights⟩ := state_of_build settles.build_eq
    exact get_trajectory_zero state weights fits i start

/-- Two probed base reservoirs of the same constant draws under a high-low drive: one settles by its
second step, the other one under a tolerance and a budget that let it stop after the first. -/
theorem simulation_regardless_of_settling_binary64 :
    let first : Request Float :=
      { Request.standard with
        inputs := 1, outputs := 2, latents := 1, random := true, simulate := 2,
        drive := "highlow", level := 0.5, compare := true, probe := true }
    let second : Request Float :=
      { first with
        settings := { first.settings with tolerance := 0.75 }, maxSteps := 1, dump := true }
    let draw : Int → (count : Nat) → Vector Float count := fun _ count => .replicate count 0.75
    first.AgreesBesideSettling second ∧ (first.run draw).exitCode = 0 ∧
      (second.run draw).exitCode = 0 ∧
      ∃ (d : Dims) (r : Reservoir Float d) (before before' : String),
        (first.run draw).output = before ++ (first.simulateFrom (.ofReservoir r)).output ∧
        (second.run draw).output = before' ++ (first.simulateFrom (.ofReservoir r)).output ∧
        (d.outputs * 2 < wordLimit → ∀ i, (first.trajectory r).sheet.get i (0 : Fin 2) = 0) := by
  intro first second draw
  have succeeds : (first.run draw).exitCode = 0 := by decide +kernel
  have succeeds' : (second.run draw).exitCode = 0 := by decide +kernel
  obtain ⟨d, r, taken, settled, settles⟩ := exists_settles_of_exitCode succeeds
  obtain ⟨d', r', taken', settled', settles'⟩ := exists_settles_of_exitCode succeeds'
  have agrees : first.AgreesBesideSettling second := rfl
  obtain ⟨ran, ran', _, _, shown⟩ :=
    simulation_regardless_of_settling agrees (by decide) settles settles'
  refine ⟨agrees, succeeds, succeeds', d, r, _, _, congrArg Transcript.output ran,
    congrArg Transcript.output ran', fun fits i => ?_⟩
  exact (shown succeeds).2 fits i ⟨0, by decide⟩ rfl

end EchoState.Command.Request
