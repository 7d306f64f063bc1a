import EchoState.Proofs.Control
import EchoState.Reservoir.FixedPoint
import EchoState.Reservoir.Flow

/-!
# What the tolerance does not reach

The tolerance decides when a reservoir counts as settled. The constructors keep it among the
settings without reading it, and neither an assignment nor an integration step reads it. Under
another tolerance the same parts are accepted and refused, and a simulation leads through the same
states to the same readout.
-/

namespace EchoState

variable {α : Type} {d : Dims}

def Settings.withTolerance (tolerance : α) (settings : Settings α) : Settings α :=
  { settings with tolerance }

def Reservoir.withTolerance (tolerance : α) (r : Reservoir α d) : Reservoir α d :=
  { r with settings := r.settings.withTolerance tolerance }

def AnyReservoir.withTolerance (tolerance : α) (r : AnyReservoir α) : AnyReservoir α :=
  ⟨r.dims, r.reservoir.withTolerance tolerance⟩

namespace Reservoir

variable [Scalar α] (tolerance : α) (r : Reservoir α d)

/-! ## Assignments -/

omit [Scalar α] in
/-- A part that is replaced after its check is replaced under any tolerance. -/
theorem replace_withTolerance {β : Type} {note : Note α} {check : Outcome α β}
    {put put' : β → Reservoir α d} (same : ∀ part, put' part = (put part).withTolerance tolerance) :
    Outcome.within note (check >>= fun part => return put' part) =
      (Outcome.within note (check >>= fun part => return put part)).map
        (withTolerance tolerance) :=
  Outcome.within_eq_map (Outcome.bind_eq_map_same fun part => congrArg Except.ok (same part))

theorem assignInput_withTolerance (v : Given α) :
    (r.withTolerance tolerance).assignInput v = (r.assignInput v).map (withTolerance tolerance) :=
  replace_withTolerance tolerance fun _ => rfl

theorem assignRecurrent_withTolerance (m : Operand α) :
    (r.withTolerance tolerance).assignRecurrent m =
      (r.assignRecurrent m).map (withTolerance tolerance) :=
  replace_withTolerance tolerance fun _ => rfl

theorem assignInputWeights_withTolerance (m : Operand α) :
    (r.withTolerance tolerance).assignInputWeights m =
      (r.assignInputWeights m).map (withTolerance tolerance) :=
  replace_withTolerance tolerance fun _ => rfl

theorem assignReadoutWeights_withTolerance (m : Operand α) :
    (r.withTolerance tolerance).assignReadoutWeights m =
      (r.assignReadoutWeights m).map (withTolerance tolerance) :=
  replace_withTolerance tolerance fun _ => rfl

theorem anchorWithin_withTolerance (point : Vector α d.latents) :
    (r.withTolerance tolerance).anchorWithin point =
      (r.anchorWithin point).map (withTolerance tolerance) := by
  unfold anchorWithin
  cases point.findFinIdx? fun value => Scalar.le 1 (Scalar.abs value) with
  | none => rfl
  | some i => rfl

/-! ## Constructors -/

theorem create_withTolerance (inputs outputs latents : Int) (settings : Settings α) :
    create inputs outputs latents (settings.withTolerance tolerance) =
      (create inputs outputs latents settings).map (AnyReservoir.withTolerance tolerance) := by
  unfold create
  cases Dims.ofInts? inputs outputs latents with
  | none => rfl
  | some d => rfl

theorem ofFixedPoint_withTolerance (recurrent inputWeights readoutWeights : Operand α)
    (point input : Given α) (settings : Settings α) :
    ofFixedPoint recurrent inputWeights readoutWeights point input
        (settings.withTolerance tolerance) =
      (ofFixedPoint recurrent inputWeights readoutWeights point input settings).map
        (AnyReservoir.withTolerance tolerance) := by
  refine Outcome.within_eq_map ?_
  iterate 4 refine Outcome.bind_eq_map_same fun _ => ?_
  refine Outcome.bind_eq_map (create_withTolerance tolerance _ _ _ settings) ?_
  rintro ⟨d, blank⟩
  refine Outcome.bind_eq_map (assignRecurrent_withTolerance tolerance blank recurrent) fun r => ?_
  refine Outcome.bind_eq_map (assignInputWeights_withTolerance tolerance r inputWeights) fun r => ?_
  refine Outcome.bind_eq_map (assignReadoutWeights_withTolerance tolerance r readoutWeights)
    fun r => ?_
  refine Outcome.bind_eq_map_same fun state => ?_
  refine Outcome.bind_eq_map (assignInput_withTolerance tolerance r input) fun r => ?_
  refine Outcome.bind_eq_map (anchorWithin_withTolerance tolerance r state) fun r => ?_
  rfl

theorem ofDraws_withTolerance (inputs outputs latents : Int)
    (draw : (count : Nat) → Vector α count) (settings : Settings α) :
    ofDraws inputs outputs latents draw (settings.withTolerance tolerance) =
      (ofDraws inputs outputs latents draw settings).map
        (AnyReservoir.withTolerance tolerance) := by
  refine Outcome.within_eq_map ?_
  cases Dims.ofInts? inputs outputs latents with
  | none => rfl
  | some d =>
      iterate 3 refine Outcome.bind_eq_map_same fun _ => ?_
      exact ofFixedPoint_withTolerance tolerance _ _ _ _ _ settings

/-! ## Simulations -/

omit [Scalar α] in
@[simp]
theorem state_withTolerance : (r.withTolerance tolerance).state = r.state :=
  rfl

theorem flow_withTolerance (state : Vector α d.latents) (x : StageInputs (Vector α d.inputs)) :
    (r.withTolerance tolerance).flow state x = r.flow state x :=
  rfl

theorem orbit_withTolerance (state : Vector α d.latents) (samples : List (Vector α d.inputs)) :
    (r.withTolerance tolerance).orbit state samples = r.orbit state samples := by
  induction samples generalizing state with
  | nil => rfl
  | cons x rest ih =>
      cases rest with
      | nil => rfl
      | cons y others =>
          unfold orbit
          rw [flow_withTolerance, ih]

/-- A simulation under another tolerance fails in the same way or has the same readout. -/
theorem simulate_withTolerance (inputs : List (Given α)) :
    (r.withTolerance tolerance).simulate inputs =
      (r.simulate inputs).map fun (readout, last) => (readout, last.withTolerance tolerance) := by
  refine Outcome.within_eq_map (Outcome.bind_eq_map_same fun samples => ?_)
  simp only [orbit_withTolerance, state_withTolerance]
  cases firstNonFinite? (r.orbit r.state samples.toList) with
  | none => rfl
  | some place => rfl

end Reservoir

end EchoState
