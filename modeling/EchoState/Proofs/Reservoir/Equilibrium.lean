import EchoState.Proofs.Reservoir.Samples
import EchoState.Proofs.Scalar.Equality

/-!
# Equilibria of the integration

A state that the discrete map takes to itself, numerically, is an equilibrium of the integration. At
such a state the drift is made of zeros of either sign, so every stage of a step is taken at a state
that is numerically the same; and numerically equal states have the same activation, to the last
bit, because an entry that differs is a zero and left out of every sum. Hence steps and simulations
of any length stay there, and each column of a simulation is the first.
-/

namespace EchoState

variable {α : Type} [Scalar α]

def Agrees {n : Nat} (x y : Vector α n) : Prop :=
  ∀ i, Scalar.eq (x.get i) (y.get i) = true

instance {n : Nat} (x y : Vector α n) : Decidable (Agrees x y) :=
  inferInstanceAs (Decidable (∀ i, Scalar.eq (x.get i) (y.get i) = true))

namespace Agrees

variable {n : Nat} {x y z : Vector α n}

theorem trans [OrderedScalar α] (first : Agrees x y) (second : Agrees y z) : Agrees x z :=
  fun i => Scalar.eq_trans (first i) (second i)

theorem symm [OrderedScalar α] (same : Agrees x y) : Agrees y x :=
  fun i => Scalar.eq_symm (same i)

theorem of_finite [OrderedScalar α] (finite : AllFinite x.toArray) : Agrees x x :=
  fun i => Scalar.eq_self_of_finite ((allFinite_vector_iff x).mp finite i)

theorem allFinite [CancellingScalar α] (same : Agrees x y) (finite : AllFinite y.toArray) :
    AllFinite x.toArray :=
  (allFinite_vector_iff x).mpr fun i =>
    CancellingScalar.finite_of_eq (same i) ((allFinite_vector_iff y).mp finite i)

end Agrees

variable [CancellingScalar α]

theorem Sheet.rowDot_of_agrees {rows cols : Nat} (m : Sheet α rows cols) {x y : Vector α cols}
    (same : Agrees x y) (i : Fin rows) : m.rowDot x i = m.rowDot y i := by
  -- an entry is the same in both vectors, or a zero in both and left out of both sums
  apply Scalar.sumWhere_congr
  · intro j
    rcases Scalar.eq_or_isZero (same j) with entry | ⟨xZero, yZero⟩
    · rw [entry]
    · rw [xZero, yZero]
  · intro j kept
    rcases Scalar.eq_or_isZero (same j) with entry | ⟨xZero, _⟩
    · rw [entry]
    · rw [xZero] at kept
      cases kept

/-- Products of finite weights with records of numerically equal finite states are the same. -/
theorem Sheet.mul_of_agrees {rows inner cols : Nat} {m : Sheet α rows inner}
    (weights : AllFinite m.values) {states states' : Fin cols → Vector α inner}
    (same : ∀ t, Agrees (states t) (states' t)) (finite : ∀ t, AllFinite (states' t).toArray) :
    m.mul (.whole (.ofFn fun i t => (states t).get i)) =
      m.mul (.whole (.ofFn fun i t => (states' t).get i)) := by
  apply Sheet.mul_whole_congr
  intro i t
  have weightsFinite := Sheet.finite_get MeasuredScalar.finite_zero weights i
  have column (states : Fin cols → Vector α inner) (k : Fin inner) :
      (Sheet.whole (Grid.ofFn fun i t => (states t).get i)).get k t = (states t).get k := by simp
  rw [Sheet.cellSum_eq_rowDot (column states) weightsFinite
      ((allFinite_vector_iff _).mp ((same t).allFinite (finite t))),
    Sheet.cellSum_eq_rowDot (column states') weightsFinite
      ((allFinite_vector_iff _).mp (finite t))]
  exact m.rowDot_of_agrees (same t) i

namespace Reservoir

variable {d : Dims} {r : Reservoir α d}

theorem activation_of_agrees {state state' : Vector α d.latents} (same : Agrees state state')
    (x : Vector α d.inputs) : r.activation state x = r.activation state' x := by
  unfold activation
  simp only [← Sheet.rowDot_whole, (Sheet.whole r.recurrent).rowDot_of_agrees same]

/-- Adding a finite multiple of zeros changes nothing numerically. -/
theorem addScaled_agrees {n : Nat} {y zeros : Vector α n} (finite : AllFinite y.toArray)
    {factor : α} (factorFinite : Scalar.finite factor)
    (areZeros : ∀ i, Scalar.isZero (zeros.get i)) : Agrees (addScaled y factor zeros) y := by
  intro i
  unfold addScaled
  rw [Vector.get_ofFn]
  exact CancellingScalar.add_eq_of_isZero ((allFinite_vector_iff y).mp finite i)
    (SignedZeroScalar.isZero_mul_right factorFinite (areZeros i))

/-- A finite state whose activation under an input is numerically the state itself. -/
structure Balanced (r : Reservoir α d) (x : Vector α d.inputs) (state : Vector α d.latents) :
    Prop where
  finite : AllFinite state.toArray
  agrees : Agrees (r.activation state x) state

namespace Balanced

variable {x : Vector α d.inputs} {state : Vector α d.latents} (balanced : r.Balanced x state)

include balanced

theorem of_agrees {state' : Vector α d.latents} (same : Agrees state' state) :
    r.Balanced x state' where
  finite := same.allFinite balanced.finite
  agrees := by
    rw [activation_of_agrees same]
    exact balanced.agrees.trans same.symm

variable (paceFinite : Scalar.finite (r.settings.timescale * r.settings.gamma))

include paceFinite

theorem isZero_drift (i : Fin d.latents) : Scalar.isZero ((r.drift state x).get i) := by
  unfold drift
  rw [Vector.get_ofFn]
  exact SignedZeroScalar.isZero_mul_left paceFinite <|
    CancellingScalar.isZero_sub ((allFinite_vector_iff state).mp balanced.finite i)
      (balanced.agrees i)

/-- A multiple of the drift at one balanced state leads another one to a third. -/
theorem addScaled_drift {other : Vector α d.latents} (others : r.Balanced x other) {factor : α}
    (factorFinite : Scalar.finite factor) :
    Agrees (addScaled other factor (r.drift state x)) other :=
  addScaled_agrees others.finite factorFinite (balanced.isZero_drift paceFinite)

open CancellingScalar

theorem flow_agrees : Agrees (r.flow state (.held x)) state := by
  have probe₂ := balanced.of_agrees (balanced.addScaled_drift paceFinite balanced finite_half)
  have probe₃ := balanced.of_agrees (probe₂.addScaled_drift paceFinite balanced finite_half)
  have probe₄ := balanced.of_agrees (probe₃.addScaled_drift paceFinite balanced finite_one)
  have sum₁ := balanced.addScaled_drift paceFinite balanced finite_sixth
  have sum₂ := (probe₂.addScaled_drift paceFinite (balanced.of_agrees sum₁) finite_third).trans sum₁
  have sum₃ := (probe₃.addScaled_drift paceFinite (balanced.of_agrees sum₂) finite_third).trans sum₂
  exact (probe₄.addScaled_drift paceFinite (balanced.of_agrees sum₃) finite_sixth).trans sum₃

theorem flowAlong_agrees (count : Nat) :
    Agrees (r.flowAlong state (List.replicate count x)) state := by
  induction count with
  | zero => exact .of_finite balanced.finite
  | succ count ih =>
      rw [List.replicate_succ', flowAlong_append]
      exact ((balanced.of_agrees ih).flow_agrees paceFinite).trans ih

end Balanced

end Reservoir

namespace Machine

section Held

variable {d : Dims} {m : Machine α d} {x : Vector α d.inputs}
  (balanced : m.reservoir.Balanced x m.reservoir.state)
  (paceFinite : Scalar.finite (m.reservoir.settings.timescale * m.reservoir.settings.gamma))
  {given : Given α} (accepted : given.ofFinite d.inputs = .ok x)

include balanced paceFinite accepted

theorem propagate_of_balanced :
    (m.propagate (.held given)).1 = .ok () ∧ ∃ state, Agrees state m.reservoir.state ∧
      (m.propagate (.held given)).2.reservoir = { m.reservoir with state } := by
  have same := balanced.flow_agrees paceFinite
  obtain ⟨answered, left⟩ := m.propagate_eq (.held given)
  rw [(Reservoir.propagate_held accepted).1 (same.allFinite balanced.finite)] at answered left
  exact ⟨answered, _, same, left⟩

/-- A simulation at an equilibrium records the state that it begins with, over and over. -/
theorem simulate_of_balanced (weights : AllFinite m.reservoir.readoutWeights.values)
    (count : Nat) :
    (m.simulate (List.replicate (count + 1) given)).1 =
        .ok (m.reservoir.recorded (count + 1) fun _ => m.reservoir.state) ∧
      ∃ state, Agrees state m.reservoir.state ∧
        (m.simulate (List.replicate (count + 1) given)).2.reservoir =
          { m.reservoir with state } := by
  obtain ⟨isGiven, xFinite⟩ := Given.ofFinite_eq_ok_iff.mp accepted
  have samples : List.replicate (count + 1) given =
      (List.replicate (count + 1) x).map fun x => some x.toArray := by
    rw [List.map_replicate, isGiven]
  have states (t : Nat) : Agrees (m.reservoir.flowAlong m.reservoir.state
      ((List.replicate (count + 1) x).take t)) m.reservoir.state := by
    rw [List.take_replicate]
    exact balanced.flowAlong_agrees paceFinite _
  have stays : ¬m.reservoir.Diverges (List.replicate (count + 1) x) := by
    rintro ⟨t, _, notFinite⟩
    exact notFinite ((states t).allFinite balanced.finite)
  have allFinite : ∀ sample ∈ List.replicate (count + 1) x, AllFinite sample.toArray := by
    intro sample listed
    rw [List.eq_of_mem_replicate listed]
    exact xFinite
  obtain ⟨answered, left⟩ := simulate_of_not_diverges allFinite samples stays
  refine ⟨answered.trans (congrArg Except.ok ?_), _, states _, left⟩
  rw [List.length_replicate]
  unfold Reservoir.recorded
  rw [Sheet.mul_of_agrees weights (fun t => states t.val) fun _ => balanced.finite]

end Held

/-- Where a reservoir in use has a finite state that the discrete map under some accepted input
takes to itself, numerically, the state is an equilibrium of the integration under that input: a
step, where the weights can be counted, and a simulation of any length that can be recorded succeed
and leave a numerically equal state, and the simulation reads out the same state at every sample, so
that all its columns are the same, to the last bit. -/
theorem stays_at_equilibrium [Distances α] {settings : Settings α} {r : AnyReservoir α}
    (constructed : Constructed settings r) (bound : Nat) (operations : List (Operation α)) :
    let m := ((ofReservoir r.reservoir).performAll bound operations).2
    AllFinite m.reservoir.state.toArray →
    Scalar.finite (m.reservoir.settings.timescale * m.reservoir.settings.gamma) →
    ∀ (given : Given α) (x : Vector α r.dims.inputs), given.ofFinite r.dims.inputs = .ok x →
    Agrees (m.reservoir.activation m.reservoir.state x) m.reservoir.state →
      (r.dims.Countable → (m.propagate (.held given)).1 = .ok () ∧
        ∃ state, Agrees state m.reservoir.state ∧
          (m.propagate (.held given)).2.reservoir = { m.reservoir with state }) ∧
      ∀ count, r.dims.Recordable (count + 1) → ∃ sheet : Sheet α r.dims.outputs (count + 1),
        (m.simulate (List.replicate (count + 1) given)).1 = .ok ⟨_, _, sheet⟩ ∧
        sheet = m.reservoir.readoutWeights.mul
          (.whole (.ofFn fun k _ => m.reservoir.state.get k)) ∧
        (∀ i t, sheet.get i t = sheet.get i 0) ∧
        ∃ state, Agrees state m.reservoir.state ∧
          (m.simulate (List.replicate (count + 1) given)).2.reservoir =
            { m.reservoir with state } := by
  intro m finite paceFinite given x accepted agrees
  have balanced : m.reservoir.Balanced x m.reservoir.state := ⟨finite, agrees⟩
  have wellFormed : m.reservoir.WellFormed settings :=
    (Reservoir.WellFormed.origin constructed.origin).trace
      (Recorded.trace_performAll bound r.reservoir operations)
  refine ⟨fun _ => propagate_of_balanced balanced paceFinite accepted, fun count recordable => ?_⟩
  obtain ⟨answered, left⟩ := simulate_of_balanced balanced paceFinite accepted
    wellFormed.readoutWeights_finite count
  refine ⟨_, answered, rfl, fun i t => ?_, left⟩
  have column := get_readout_record wellFormed recordable.readouts (fun _ => m.reservoir.state)
    (fun _ _ => finite) i
  rw [column, column]

/-- An equilibrium in binary64 with a saturated entry and a negative zero, whose activation is the
other zero. -/
theorem stays_at_equilibrium_negative_zero :
    let settings : Settings Float := Settings.standard
    let weights : Operand Float := .stored ⟨2, 2, .whole ⟨#v[20, 0, 0, 5]⟩⟩
    let m := ((ofReservoir (Reservoir.blank ⟨0, 2, 2⟩ settings)).performAll 1
      [.assignRecurrent weights, .assignReadoutWeights weights, .assignState (some #[1, -0])]).2
    m.reservoir.state = #v[1, -0] ∧ m.reservoir.activation #v[1, -0] #v[] = #v[1, 0] ∧
      (m.propagate (.held (some #[]))).1 = .ok () ∧
      ∃ sheet : Sheet Float 2 3, ∃ state,
        (m.simulate (List.replicate 3 (some #[]))).1 = .ok ⟨2, 3, sheet⟩ ∧
        (∀ i t, sheet.get i t = sheet.get i 0) ∧ Agrees state #v[1, -0] ∧
        (m.simulate (List.replicate 3 (some #[]))).2.reservoir = { m.reservoir with state } := by
  intro settings weights m
  have state : m.reservoir.state = #v[1, -0] := by decide +kernel
  have active : m.reservoir.activation #v[1, -0] #v[] = #v[1, 0] := by decide +kernel
  have constructed : Constructed settings ⟨⟨0, 2, 2⟩, Reservoir.blank ⟨0, 2, 2⟩ settings⟩ :=
    .create 0 2 2 rfl
  have finite : AllFinite m.reservoir.state.toArray := by
    rw [state]
    decide +kernel
  have paceFinite :
      Scalar.finite (m.reservoir.settings.timescale * m.reservoir.settings.gamma) := by
    decide +kernel
  have accepted : Given.ofFinite (some #[] : Given Float) 0 = .ok #v[] :=
    Given.ofFinite_eq_ok_iff.mpr ⟨rfl, nofun⟩
  have agrees : Agrees (m.reservoir.activation m.reservoir.state #v[]) m.reservoir.state := by
    rw [state, active]
    decide +kernel
  have recordable : Dims.Recordable ⟨0, 2, 2⟩ 3 :=
    ⟨⟨by decide, by decide, by decide⟩, by decide, by decide⟩
  obtain ⟨steps, simulated⟩ := stays_at_equilibrium constructed 1 _ finite paceFinite
    (some #[]) #v[] accepted agrees
  obtain ⟨sheet, answered, _, columns, next, same, left⟩ := simulated 2 recordable
  rw [state] at same
  exact
    ⟨state, active, (steps recordable.toCountable).1, sheet, next, answered, columns, same, left⟩

end Machine

end EchoState
