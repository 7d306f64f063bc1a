import EchoState.Proofs.Matrix.Finite
import EchoState.Reservoir.FixedPoint
import EchoState.Reservoir.Operation

/-!
# Traces

What can happen to a reservoir, said once. A trace makes discrete steps, each with the change of
state that it returned, and replaces parts of the reservoir by checked ones. Every constructor
leads to its reservoir by a trace from the reservoir of zeros, up to the choice of a bias, and every
operation of a machine, whether it succeeds or fails, is a trace of the reservoir of the machine.
-/

namespace EchoState

variable {α : Type} [Scalar α] {d : Dims}

/-- The replacement of one part of a reservoir. The state may become anything; the other parts that
callers hand over have passed their checks. -/
inductive Edit : Reservoir α d → Reservoir α d → Prop where
  | state (r : Reservoir α d) (state : Vector α d.latents) : Edit r { r with state }
  | input (r : Reservoir α d) {given : Given α} {input : Vector α d.inputs}
      (accepted : given.ofFinite d.inputs = .ok input) : Edit r { r with input }
  | bias (r : Reservoir α d) {given : Given α} {bias : Vector α d.latents}
      (accepted : given.ofFinite d.latents = .ok bias) : Edit r { r with bias }
  | recurrent (r : Reservoir α d) {given : Operand α} {recurrent : Grid α d.latents d.latents}
      (accepted : given.toGrid d.latents d.latents = .ok recurrent) : Edit r { r with recurrent }
  | inputWeights (r : Reservoir α d) {given : Operand α}
      {inputWeights : Grid α d.latents d.inputs}
      (accepted : given.toGrid d.latents d.inputs = .ok inputWeights) :
      Edit r { r with inputWeights }
  | readoutWeights (r : Reservoir α d) {given : Operand α}
      {readoutWeights : Sheet α d.outputs d.latents}
      (accepted : given.toSheet d.outputs d.latents = .ok readoutWeights) :
      Edit r { r with readoutWeights }

section Trace

variable [Distances α]

/-- What happens to a reservoir between two moments, with the changes of state that its discrete
steps returned, in order. -/
inductive Trace : Reservoir α d → List α → Reservoir α d → Prop where
  | refl (r : Reservoir α d) : Trace r [] r
  | step {first last : Reservoir α d} {deltas : List α} (before : Trace first deltas last) :
      Trace first (deltas ++ [last.advance.1]) last.advance.2
  | edit {first middle last : Reservoir α d} {deltas : List α} (before : Trace first deltas middle)
      (replaced : Edit middle last) : Trace first deltas last

namespace Trace

theorem ofEdit {first last : Reservoir α d} (replaced : Edit first last) : Trace first [] last :=
  (refl first).edit replaced

theorem trans {first middle last : Reservoir α d} {deltas later : List α}
    (left : Trace first deltas middle) (right : Trace middle later last) :
    Trace first (deltas ++ later) last := by
  induction right with
  | refl => rwa [List.append_nil]
  | step before ih =>
      rw [← List.append_assoc]
      exact ih.step
  | edit before replaced ih => exact ih.edit replaced

end Trace

end Trace

omit [Scalar α] in
/-- A part is replaced by what its check accepts. -/
theorem replace_eq_ok_iff {β : Type} {next : Reservoir α d} {note : Note α} {check : Outcome α β}
    {put : β → Reservoir α d} :
    Outcome.within note (check >>= fun part => return put part) = .ok next ↔
      ∃ part, check = .ok part ∧ put part = next := by
  simp only [Outcome.within_eq_ok_iff, Outcome.bind_eq_ok_iff, Outcome.pure_eq_ok_iff]

/-- A part that is replaced after its check is an edit when the checked part is. -/
theorem edit_of_replace {β : Type} {r next : Reservoir α d} {note : Note α} {check : Outcome α β}
    {put : β → Reservoir α d} (edits : ∀ part, check = .ok part → Edit r (put part))
    (assigned : Outcome.within note (check >>= fun part => return put part) = .ok next) :
    Edit r next := by
  obtain ⟨part, accepted, rfl⟩ := replace_eq_ok_iff.mp assigned
  exact edits part accepted

namespace Reservoir

variable {r next : Reservoir α d}

theorem edit_of_assignState {v : Given α} (assigned : r.assignState v = .ok next) :
    Edit r next :=
  edit_of_replace (fun part _ => .state r part) assigned

theorem edit_of_assignInput {v : Given α} (assigned : r.assignInput v = .ok next) :
    Edit r next :=
  edit_of_replace (fun _ accepted => .input r accepted) assigned

theorem edit_of_assignBias {v : Given α} (assigned : r.assignBias v = .ok next) : Edit r next :=
  edit_of_replace (fun _ accepted => .bias r accepted) assigned

theorem edit_of_assignRecurrent {m : Operand α} (assigned : r.assignRecurrent m = .ok next) :
    Edit r next :=
  edit_of_replace (fun _ accepted => .recurrent r accepted) assigned

theorem edit_of_assignInputWeights {m : Operand α}
    (assigned : r.assignInputWeights m = .ok next) : Edit r next :=
  edit_of_replace (fun _ accepted => .inputWeights r accepted) assigned

theorem edit_of_assignReadoutWeights {m : Operand α}
    (assigned : r.assignReadoutWeights m = .ok next) : Edit r next :=
  edit_of_replace (fun _ accepted => .readoutWeights r accepted) assigned

end Reservoir

/-! ## Constructors -/

/-- The reservoir comes from a successful constructor. -/
inductive Constructed (settings : Settings α) : AnyReservoir α → Prop where
  | create (inputs outputs latents : Int) {r : AnyReservoir α}
      (built : Reservoir.create inputs outputs latents settings = .ok r) : Constructed settings r
  | ofFixedPoint (recurrent inputWeights readoutWeights : Operand α) (point input : Given α)
      {r : AnyReservoir α}
      (built : Reservoir.ofFixedPoint recurrent inputWeights readoutWeights point input settings =
        .ok r) : Constructed settings r
  | ofDraws (inputs outputs latents : Int) (draw : (count : Nat) → Vector α count)
      {r : AnyReservoir α}
      (built : Reservoir.ofDraws inputs outputs latents draw settings = .ok r) :
      Constructed settings r

/-- The reservoir is reached by edits of the reservoir of zeros and at most one choice of the bias
after them, for an accepted fixed point. -/
def Origin [Distances α] (settings : Settings α) (r : Reservoir α d) : Prop :=
  ∃ plain : Reservoir α d, Trace (Reservoir.blank d settings) [] plain ∧
    (r = plain ∨ ∃ (given : Given α) (point : Vector α d.latents),
      given.ofFinite d.latents = .ok point ∧ plain.anchorWithin point = .ok r)

theorem eq_blank_of_create {settings : Settings α} {inputs outputs latents : Int}
    {r : AnyReservoir α} (built : Reservoir.create inputs outputs latents settings = .ok r) :
    r.reservoir = Reservoir.blank r.dims settings := by
  unfold Reservoir.create at built
  cases requested : Dims.ofInts? inputs outputs latents with
  | none =>
      rw [requested] at built
      cases built
  | some dims =>
      rw [requested] at built
      cases built
      rfl

/-- A fixed point is accepted exactly inside the domain of the inverse activation. -/
theorem Reservoir.anchorWithin_eq_ok_iff {r next : Reservoir α d} {point : Vector α d.latents} :
    r.anchorWithin point = .ok next ↔
      (∀ i, ¬Scalar.le 1 (Scalar.abs (point.get i))) ∧ r.anchor point = next := by
  have none : (point.findFinIdx? fun value => Scalar.le 1 (Scalar.abs value)) = none ↔
      ∀ i, ¬Scalar.le 1 (Scalar.abs (point.get i)) := by
    rw [Vector.findFinIdx?_eq_none_iff]
    constructor
    · exact fun outside i => outside _ (Vector.getElem_mem i.isLt)
    · intro each value isEntry
      obtain ⟨i, within, rfl⟩ := Vector.mem_iff_getElem.mp isEntry
      exact each ⟨i, within⟩
  unfold anchorWithin
  rw [← none]
  cases point.findFinIdx? fun value => Scalar.le 1 (Scalar.abs value) with
  | none => simp
  | some i => simp

section Origin

variable [Distances α]

theorem origin_of_ofFixedPoint {settings : Settings α}
    {recurrent inputWeights readoutWeights : Operand α} {point input : Given α}
    {r : AnyReservoir α}
    (built : Reservoir.ofFixedPoint recurrent inputWeights readoutWeights point input settings =
      .ok r) : Origin settings r.reservoir := by
  simp only [Reservoir.ofFixedPoint, Outcome.within_eq_ok_iff, Outcome.bind_eq_ok_iff,
    Outcome.pure_eq_ok_iff] at built
  obtain ⟨_, _, _, _, _, _, _, _, ⟨dims, zeros⟩, created, rest⟩ := built
  obtain ⟨recurrentSet, first, inputWeightsSet, second, readoutWeightsSet, third, rest⟩ := rest
  obtain ⟨state, accepted, inputSet, fourth, anchored, anchoring, rfl⟩ := rest
  have zeros_eq : zeros = Reservoir.blank dims settings := eq_blank_of_create created
  subst zeros_eq
  refine ⟨inputSet, ?_, Or.inr ⟨point, state, accepted, anchoring⟩⟩
  have afterRecurrent := Trace.ofEdit (Reservoir.edit_of_assignRecurrent first)
  have afterInputWeights := afterRecurrent.edit (Reservoir.edit_of_assignInputWeights second)
  have afterReadoutWeights :=
    afterInputWeights.edit (Reservoir.edit_of_assignReadoutWeights third)
  exact afterReadoutWeights.edit (Reservoir.edit_of_assignInput fourth)

theorem origin_of_ofDraws {settings : Settings α} {inputs outputs latents : Int}
    {draw : (count : Nat) → Vector α count} {r : AnyReservoir α}
    (built : Reservoir.ofDraws inputs outputs latents draw settings = .ok r) :
    Origin settings r.reservoir := by
  unfold Reservoir.ofDraws at built
  rw [Outcome.within_eq_ok_iff] at built
  cases requested : Dims.ofInts? inputs outputs latents with
  | none =>
      rw [requested] at built
      cases built
  | some dims =>
      rw [requested] at built
      simp only [Outcome.bind_eq_ok_iff] at built
      obtain ⟨_, _, _, _, _, _, placed⟩ := built
      exact origin_of_ofFixedPoint placed

theorem Constructed.origin {settings : Settings α} {r : AnyReservoir α}
    (constructed : Constructed settings r) : Origin settings r.reservoir := by
  cases constructed with
  | create _ _ _ built =>
      rw [eq_blank_of_create built]
      exact ⟨_, .refl _, Or.inl rfl⟩
  | ofFixedPoint _ _ _ _ _ built => exact origin_of_ofFixedPoint built
  | ofDraws _ _ _ _ built => exact origin_of_ofDraws built

end Origin

/-! ## Operations -/

namespace Machine

theorem activateInto_eq (r : Reservoir α d) (buffer state : Vector α d.latents)
    (input : Vector α d.inputs) : activateInto r buffer state input = r.activation state input := by
  apply Vector.ext
  intro i inside
  simp [activateInto, Reservoir.activation]

/-- A step of a machine is a step of its reservoir, whatever the buffers hold. -/
theorem advance_eq [Distances α] (m : Machine α d) :
    m.advance = (m.reservoir.advance.1,
      { m with reservoir := m.reservoir.advance.2, spare := m.reservoir.state }) := by
  unfold advance Reservoir.advance
  simp only [activateInto_eq]

theorem edit_flow (m : Machine α d) (x : Reservoir.StageInputs (Vector α d.inputs)) :
    Edit m.reservoir (m.flow x).reservoir :=
  .state m.reservoir _

theorem edit_restore (m : Machine α d) (state : Vector α d.latents) :
    Edit m.reservoir (m.restore state).reservoir :=
  .state m.reservoir _

variable [Distances α]

theorem trace_propagate (m : Machine α d) (x : Reservoir.StageInputs (Given α)) :
    Trace m.reservoir [] (m.propagate x).2.reservoir := by
  unfold propagate
  cases x.check d.inputs with
  | error error => exact .refl _
  | ok inputs =>
      dsimp only
      have moved := Trace.ofEdit
        (edit_flow { m with spare := copyInto m.spare m.reservoir.state } inputs)
      split
      · exact moved.edit (edit_restore _ _)
      · exact moved

theorem trace_integrate {samples : Nat} (m : Machine α d)
    (inputs : Vector (Vector α d.inputs) samples) :
    Trace m.reservoir [] (m.integrate inputs).2.reservoir := by
  unfold integrate
  refine fold_invariant
    (fun _ (current : Outcome α (Grid α d.latents samples) × Machine α d) =>
      Trace m.reservoir [] current.2.reservoir) _ _ ?begins ?carries
  case begins => exact .refl _
  case carries =>
    intro t inside current before
    obtain ⟨outcome, machine⟩ := current
    cases outcome with
    | error error => exact before
    | ok record =>
        dsimp only
        by_cases first : t = 0
        · rw [if_pos first]
          exact before
        · rw [if_neg first]
          exact before.edit (edit_flow machine _)

theorem trace_simulate (m : Machine α d) (inputs : List (Given α)) :
    Trace m.reservoir [] (m.simulate inputs).2.reservoir := by
  unfold simulate
  split
  · exact .refl _
  · rename_i samples _
    have moved := trace_integrate m samples
    dsimp only
    split
    · rename_i integrated
      rw [integrated] at moved
      exact moved.edit (edit_restore _ _)
    · rename_i integrated
      rw [integrated] at moved
      exact moved

theorem trace_adopt {m : Machine α d} {outcome : Outcome α (Reservoir α d)}
    (edits : ∀ next, outcome = .ok next → Edit m.reservoir next) :
    Trace m.reservoir [] (m.adopt outcome).2.reservoir := by
  cases outcome with
  | error error => exact .refl _
  | ok next => exact .ofEdit (edits next rfl)

end Machine

end EchoState
