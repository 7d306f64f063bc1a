import EchoState.Proofs.Command.Outcome

/-!
# Comparing a simulation with itself

A product with a vector passes over zero entries of either sign, so a drive of zeros leads through
the states that the quiet drive leads through; and a readout without weights is zero whatever the
states are. In both cases the two readouts that a comparison aligns are the same matrix. Its cells
are finite, since a probe only copies entries of finite states, so the distance is zero.
-/

namespace EchoState

open Binary64

/-! ## Zeros of either sign -/

def AllZero {α : Type} [Scalar α] {n : Nat} (x : Vector α n) : Prop :=
  ∀ k, Scalar.isZero (x.get k) = true

namespace Reservoir

section Zeros

variable {α : Type} [Scalar α] {d : Dims} (r : Reservoir α d) {x y : Vector α d.inputs}

theorem activation_of_allZero (state : Vector α d.latents) (xZero : AllZero x)
    (yZero : AllZero y) : r.activation state x = r.activation state y := by
  have silent {input : Vector α d.inputs} (zero : AllZero input) (i : Fin d.latents) :
      r.inputWeights.rowDot input i = 0 := by
    rw [Grid.rowDot_eq_sumWhere]
    apply Scalar.sumWhere_of_none
    intro k
    rw [zero k]
    rfl
  unfold activation
  simp only [silent xZero, silent yZero]

theorem flow_of_allZero (state : Vector α d.latents) (xZero : AllZero x) (yZero : AllZero y) :
    r.flow state (.held x) = r.flow state (.held y) := by
  have drifts (state : Vector α d.latents) : r.drift state x = r.drift state y := by
    unfold drift
    rw [r.activation_of_allZero state xZero yZero]
  unfold flow StageInputs.held
  simp only [drifts]

/-- Zero samples of either sign lead to the state that samples of zeros lead to. -/
theorem flowAlong_of_allZero [MeasuredScalar α] (state : Vector α d.latents)
    {samples : List (Vector α d.inputs)} (zeros : ∀ x ∈ samples, AllZero x) :
    r.flowAlong state samples =
      r.flowAlong state (List.replicate samples.length (Vector.replicate d.inputs 0)) := by
  have zero : AllZero (Vector.replicate d.inputs (0 : α)) := by
    intro k
    exact (congrArg Scalar.isZero (Vector.getElem_replicate k.isLt)).trans Scalar.isZero_zero
  induction samples generalizing state with
  | nil => rfl
  | cons x rest ih =>
      rw [List.forall_mem_cons] at zeros
      have first := r.flow_of_allZero state zeros.1 zero
      exact (ih (r.flow state (.held x)) zeros.2).trans (by rw [first]; rfl)

end Zeros

/-! ## Recorded readouts -/

section Recorded

variable {α : Type} [Scalar α] {d : Dims} (r : Reservoir α d)

def ReadsNothing : Prop :=
  ∀ i j, r.readoutWeights.get i j = 0

/-- The readout copies the leading entries of the state. -/
def ReadsLeading : Prop :=
  ∀ i j, r.readoutWeights.get i j = Matrix.selectorCell i j

variable {r} {count : Nat} {states : Nat → Vector α d.latents}

theorem cellSum_of_readsNothing [MeasuredScalar α] (nothing : r.ReadsNothing)
    (b : Sheet α d.latents count) (i : Fin d.outputs) (j : Fin count) :
    r.readoutWeights.cellSum b i j = 0 := by
  apply Scalar.sumWhere_of_none
  intro k
  rw [nothing, Scalar.isZero_zero]
  rfl

theorem recorded_of_readsNothing [MeasuredScalar α] (nothing : r.ReadsNothing)
    (states' : Nat → Vector α d.latents) : r.recorded count states = r.recorded count states' := by
  refine congrArg (Matrix.mk d.outputs count) (Sheet.mul_whole_congr fun i j => ?_)
  rw [cellSum_of_readsNothing nothing, cellSum_of_readsNothing nothing]

end Recorded

section Finite

variable {d : Dims} {r : Reservoir Float d} {count : Nat} {states : Nat → Vector Float d.latents}

/-- A record of finite states is finite when it copies their entries or is without weights. -/
theorem finite_recorded (reads : r.ReadsNothing ∨ r.ReadsLeading)
    (finite : ∀ t < count, AllFinite (states t).toArray) (i : Fin d.outputs) (t : Fin count) :
    Scalar.finite ((r.recorded count states).sheet.get i t) = true := by
  have zeroFinite : Scalar.finite (0 : Float) = true := MeasuredScalar.finite_zero
  refine Sheet.get_mul_induction (motive := fun cell => Scalar.finite cell = true) zeroFinite
    (fun i t => ?_) i t
  rcases reads with nothing | leading
  · rw [cellSum_of_readsNothing nothing]
    exact zeroFinite
  · let columns : Sheet Float d.latents count := .whole (.ofFn fun i (t : Fin count) =>
      (states t).get i)
    have entries (k : Fin d.latents) : Scalar.finite (columns.get k t) = true := by
      rw [Sheet.get_whole, Grid.get_ofFn]
      exact (allFinite_vector_iff _).mp (finite t t.isLt) k
    rw [Matrix.cellSum_of_selectorCells leading entries]
    exact Scalar.finite_plain (Matrix.finite_padded entries i)

end Finite

end Reservoir

namespace Matrix

variable {α : Type} [Scalar α] [Legible α]

theorem text_eq (m : Matrix α) : m.text = "" ∨ ∃ earlier, m.text = earlier ++ "\n" := by
  unfold text format
  rcases List.eq_nil_or_concat (List.finRange m.rows) with none | ⟨early, last, rows⟩
  · rw [none]
    exact Or.inl rfl
  · rw [rows, List.concat_eq_append, List.map_append, String.join_append, List.map_singleton,
      String.join_cons, String.join_nil, String.append_empty, ← String.append_assoc]
    exact Or.inr ⟨_, rfl⟩

end Matrix

namespace Command.Request

/-! ## The comparison -/

/-- The two drives of a comparison lead through the same readouts: the drive is one of zeros, or
nothing is read. -/
def ComparesWithItself (request : Request Float) : Prop :=
  request.drive = "zeros" ∨
    (request.drive = "highlow" ∧ Scalar.isZero request.level = true) ∨ request.probe = false

section Simulation

variable {request : Request Float} {d : Dims} {r : Reservoir Float d}

/-- A drive of zeros feeds zeros of either sign. -/
theorem allZero_fed (zeros : request.drive = "zeros" ∨
      (request.drive = "highlow" ∧ Scalar.isZero request.level = true)) {channels : Nat} :
    ∀ x ∈ request.fed channels, AllZero x := by
  intro x isFed k
  obtain ⟨t, _, rfl⟩ := List.mem_map.mp isFed
  rw [Vector.get_ofFn]
  rcases zeros with zeros | ⟨highLow, zero⟩
  · rw [if_neg (by rw [zeros]; decide)]
    exact Scalar.isZero_zero
  · rw [if_pos highLow]
    split
    · exact zero
    · obtain ⟨sign, same⟩ := isZero_iff.mp zero
      exact isZero_iff.mpr ⟨_, by rw [value_neg, same]; rfl⟩

/-- The drive leads through the states that the quiet drive leads through. -/
theorem flowAlong_fed (zeros : request.drive = "zeros" ∨
      (request.drive = "highlow" ∧ Scalar.isZero request.level = true)) (t : Nat) :
    r.flowAlong r.state ((request.fed d.inputs).take t) =
      r.flowAlong r.state ((request.quietlyFed d.inputs).take t) := by
  have early : ∀ x ∈ (request.fed d.inputs).take t, AllZero x := fun x isEarly =>
    allZero_fed zeros x (List.mem_of_mem_take isEarly)
  rw [r.flowAlong_of_allZero r.state early, quietlyFed, List.take_replicate, List.length_take, fed,
    List.length_map, List.length_range]

/-- The readouts under the drive and under the quiet one are the same. -/
theorem trajectory_eq_quiet (same : request.ComparesWithItself)
    (reads : request.probe = false → r.ReadsNothing) :
    request.trajectory r = request.quietTrajectory r := by
  rcases same with zeros | zeros | unread
  · exact congrArg (r.recorded _) (funext (flowAlong_fed (Or.inl zeros)))
  · exact congrArg (r.recorded _) (funext (flowAlong_fed (Or.inr zeros)))
  · exact Reservoir.recorded_of_readsNothing (reads unread) _

variable {m driven : Machine Float d}

/-- A comparison of a readout with itself that succeeds finds no distance. -/
theorem output_compareWithQuiet (positive : 0 < request.simulate)
    (reads : m.reservoir.ReadsNothing ∨ m.reservoir.ReadsLeading)
    (stays : ¬m.reservoir.Diverges (request.quietlyFed d.inputs))
    (holds : (request.compareWithQuiet driven m
      (request.quietTrajectory m.reservoir)).failure = none) :
    (request.compareWithQuiet driven m (request.quietTrajectory m.reservoir)).output =
      "dtw: 0\n" := by
  have fits := count_of_compareWithQuiet stays holds
  have finite : ∀ t < request.simulate.toNat, AllFinite (m.reservoir.flowAlong m.reservoir.state
      ((request.quietlyFed d.inputs).take t)).toArray := by
    intro t inside
    by_contra notFinite
    exact stays ⟨t, inside.trans_eq (length_quietlyFed _).symm, notFinite⟩
  have zero := Warping.trajectories_self (m := request.quietTrajectory m.reservoir) fits
    (show request.simulate.toNat ≠ 0 by omega) (Reservoir.finite_recorded reads finite)
  have written : Legible.general (0 : Float) = "0" := by
    with_unfolding_all decide
  rw [(compareWithQuiet_of_not_diverges stays zero).2, written]
  rfl

/-- A simulation that is compared with itself and succeeds prints a matrix and the distance zero. -/
theorem output_simulateFrom (positive : 0 < request.simulate) (compare : request.compare = true)
    (same : request.ComparesWithItself)
    (nothing : request.probe = false → m.reservoir.ReadsNothing)
    (reads : m.reservoir.ReadsNothing ∨ m.reservoir.ReadsLeading)
    (holds : (request.simulateFrom m).failure = none) :
    ∃ printed : Matrix Float, (request.simulateFrom m).output = printed.text ++ "dtw: 0\n" := by
  have succeeds := not_simulationFails_of_holds positive holds
  rw [simulationFails_iff positive, not_or, not_not, not_or, not_and] at succeeds
  obtain ⟨drivable, driven, quiet⟩ := succeeds
  obtain ⟨after, ran⟩ := simulateFrom_of_not_diverges positive drivable driven
  rw [ran, if_pos compare, trajectory_eq_quiet same nothing] at holds ⊢
  exact ⟨_, congrArg (_ ++ ·)
    (output_compareWithQuiet (m := m.clone) positive reads (quiet compare) holds)⟩

end Simulation

/-! ## Whole runs -/

section Runs

variable {request : Request Float} {draw : Int → (count : Nat) → Vector Float count}

variable (request) in
theorem printedBefore_eq {d : Dims} (r settled : Reservoir Float d) :
    ∃ earlier, request.printedBefore r settled = earlier ++ "\n" := by
  refine ⟨(if request.dump then r.text else "") ++ (if request.dump then settled.text else "") ++
    ("[" ++ " ".intercalate (settled.readout.toList.map Legible.general) ++ "]"), ?_⟩
  have line (text : String) : text ++ "]\n" = text ++ "]" ++ "\n" := by
    rw [String.append_assoc]
    rfl
  rw [printedBefore, readoutLine, line]
  exact String.append_assoc.symm

/-- A run that succeeds has built a reservoir, and what it prints ends with the simulation. -/
theorem run_of_exitCode_zero (positive : 0 < request.simulate)
    (succeeds : (request.run draw).exitCode = 0) :
    ∃ (d : Dims) (r : Reservoir Float d), request.build draw = .ok ⟨d, r⟩ ∧
      (request.simulateFrom (.ofReservoir r)).failure = none ∧ ∃ earlier,
        (request.run draw).output =
          earlier ++ "\n" ++ (request.simulateFrom (.ofReservoir r)).output := by
  have holds := failure_eq_none_of_exitCode succeeds
  obtain ⟨d, r, taken, settled, settles⟩ := exists_settles_of_exitCode succeeds
  obtain ⟨earlier, line⟩ := printedBefore_eq request r settled.reservoir
  rw [settles.run_eq, if_pos positive] at holds ⊢
  exact ⟨d, r, settles.build_eq, holds, earlier, congrArg (· ++ _) line⟩

/-- The last line of a run that compares a simulation with itself shows the distance zero, whatever
the dimensions, the settings, the draws and the number of samples are. -/
theorem run_compared_with_itself (fits : request.ProbeFits) (positive : 0 < request.simulate)
    (compare : request.compare = true) (succeeds : (request.run draw).exitCode = 0)
    (same : request.ComparesWithItself) :
    ∃ earlier, (request.run draw).output = earlier ++ "\n" ++ "dtw: 0\n" := by
  obtain ⟨d, r, build, none, earlier, output⟩ := run_of_exitCode_zero positive succeeds
  obtain ⟨nothing, leading⟩ := get_readoutWeights_of_build build
  have reads : r.ReadsNothing ∨ r.ReadsLeading := by
    cases probe : request.probe with
    | false => exact Or.inl (nothing probe)
    | true => exact Or.inr (leading probe fits)
  obtain ⟨m, written⟩ := output_simulateFrom (m := .ofReservoir r) positive compare same nothing
    reads none
  rw [output, written]
  rcases m.text_eq with empty | ⟨rows, text⟩
  · rw [empty, String.empty_append]
    exact ⟨earlier, rfl⟩
  · rw [text, ← String.append_assoc, ← String.append_assoc]
    exact ⟨_, rfl⟩

end Runs

/-- A probed base reservoir of constant draws under a high-low drive of level minus zero. -/
theorem run_compared_with_itself_negative_zero :
    let request : Request Float :=
      { Request.standard with
        inputs := 1, outputs := 2, latents := 1, random := true, simulate := 2,
        drive := "highlow", level := -0, compare := true, probe := true }
    let draw : Int → (count : Nat) → Vector Float count := fun _ count => .replicate count 0.75
    request.ProbeFits ∧ (request.run draw).exitCode = 0 ∧
      ∃ earlier, (request.run draw).output = earlier ++ "\n" ++ "dtw: 0\n" := by
  intro request draw
  have fits : request.ProbeFits := fun _ => by decide
  have succeeds : (request.run draw).exitCode = 0 := by decide +kernel
  have zero : Scalar.isZero request.level = true := by with_unfolding_all decide
  exact ⟨fits, succeeds,
    run_compared_with_itself fits (by decide) rfl succeeds (Or.inr (Or.inl ⟨rfl, zero⟩))⟩

end Command.Request

end EchoState
