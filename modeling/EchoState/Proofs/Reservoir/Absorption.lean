import EchoState.Proofs.Reservoir.Simulation
import EchoState.Proofs.Reservoir.Step

/-!
# Lost states

A state with an entry that is no number is lost: one step makes all of its entries so, since zero
weights are not left out of the sums, only zero entries are. No operation but the assignment of a
new state recovers it. Discrete steps never count as convergence from there on, integration steps
and simulations are refused and taken back, and an attempt to settle ends after its first step.
-/

namespace EchoState

variable {α : Type} [Scalar α] {d : Dims}

/-- Some entry of the state is no number. -/
def Reservoir.Lost (r : Reservoir α d) : Prop :=
  ∃ i, Scalar.isNaN (r.state.get i) = true

namespace Reservoir

/-- The state and the record of convergence are the same. -/
structure Alike (r next : Reservoir α d) : Prop where
  state_eq : next.state = r.state
  converged_eq : next.converged = r.converged

omit [Scalar α] in
theorem Alike.refl (r : Reservoir α d) : Alike r r :=
  ⟨rfl, rfl⟩

theorem Alike.lost {r next : Reservoir α d} (alike : Alike r next) (lost : r.Lost) : next.Lost := by
  obtain ⟨i, none⟩ := lost
  refine ⟨i, ?_⟩
  rw [alike.state_eq]
  exact none

omit [Scalar α] in
theorem alike_of_replace {β : Type} {r next : Reservoir α d} {note : Note α}
    {check : Outcome α β} {put : β → Reservoir α d} (keeps : ∀ part, Alike r (put part))
    (assigned : Outcome.within note (check >>= fun part => return put part) = .ok next) :
    Alike r next := by
  obtain ⟨part, _, rfl⟩ := replace_eq_ok_iff.mp assigned
  exact keeps part

/-- A simulation of accepted samples is refused before the first of them. -/
theorem Lost.simulate_eq {r : Reservoir α d} (lost : r.Lost) {inputs : List (Given α)}
    {samples : Vector (Vector α d.inputs) inputs.length}
    (accepted : checkSamples (counted inputs) d.inputs = .ok samples) (some : inputs ≠ []) :
    ∃ i, r.simulate inputs =
      .error ⟨[.task .simulate, .time 0, .cell .set i 0], .notFinite⟩ := by
  obtain ⟨i, none⟩ := lost
  have found :
      ((r.stateBefore samples 0).findFinIdx? fun value => !Scalar.finite value).isSome := by
    rw [Option.isSome_iff_ne_none, Ne, Vector.findFinIdx?_eq_none_iff]
    intro finite
    have entry : r.state.get i ∈ r.state := Vector.getElem_mem i.isLt
    exact finite _ entry (by rw [Scalar.not_finite_of_isNaN none]; rfl)
  obtain ⟨first, found⟩ := Option.isSome_iff_exists.mp found
  exact ⟨first, simulate_of_nonFinite accepted (List.length_pos_iff.mpr some) nofun found⟩

theorem simulate_nil (r : Reservoir α d) : ∃ trajectory, r.simulate [] = .ok (trajectory, r) :=
  ⟨_, rfl⟩

variable [AbsorbingScalar α]

open AbsorbingScalar

/-! ## Steps from a lost state -/

section States

variable {state : Vector α d.latents}

/-- The activation of a lost state is no number in any entry, whatever the weights. -/
theorem isNaN_activation (r : Reservoir α d) (lost : ∃ j, Scalar.isNaN (state.get j) = true)
    (input : Vector α d.inputs) (i : Fin d.latents) :
    Scalar.isNaN ((r.activation state input).get i) = true := by
  obtain ⟨j, none⟩ := lost
  have kept : (!Scalar.isZero (state.get j)) = true := by
    rw [Scalar.isZero_of_isNaN none]
    rfl
  have sum : Scalar.isNaN (r.recurrent.rowDot state i) = true := by
    rw [Grid.rowDot_eq_sumWhere]
    exact Scalar.isNaN_sumWhere _ j kept (isNaN_mul (Or.inr none))
  rw [activation, Vector.get_ofFn]
  exact isNaN_tanh (isNaN_add (Or.inl (isNaN_add (Or.inl sum))))

theorem isNaN_drift (r : Reservoir α d) (lost : ∃ j, Scalar.isNaN (state.get j) = true)
    (input : Vector α d.inputs) (i : Fin d.latents) :
    Scalar.isNaN ((r.drift state input).get i) = true := by
  have active := r.isNaN_activation lost input i
  rw [drift, Vector.get_ofFn]
  exact isNaN_mul (Or.inl (isNaN_sub (Or.inl active)))

theorem isNaN_addScaled {n : Nat} {y s : Vector α n} {factor : α} {i : Fin n}
    (either : Scalar.isNaN (y.get i) = true ∨ Scalar.isNaN (s.get i) = true) :
    Scalar.isNaN ((addScaled y factor s).get i) = true := by
  rw [addScaled, Vector.get_ofFn]
  exact isNaN_add (either.imp_right fun none => isNaN_mul (Or.inr none))

/-- An integration step from a lost state ends without a number in any entry: the first slope is
none already, and the sums keep it so. -/
theorem isNaN_flow (r : Reservoir α d) (lost : ∃ j, Scalar.isNaN (state.get j) = true)
    (x : StageInputs (Vector α d.inputs)) (i : Fin d.latents) :
    Scalar.isNaN ((r.flow state x).get i) = true := by
  have first : Scalar.isNaN
      ((addScaled state (Scalar.ratio 1 6) (r.drift state x.start)).get i) = true :=
    isNaN_addScaled (Or.inr (r.isNaN_drift lost x.start i))
  exact isNaN_addScaled (Or.inl (isNaN_addScaled (Or.inl (isNaN_addScaled (Or.inl first)))))

end States

section Lost

variable {r : Reservoir α d} (lost : r.Lost)

include lost

/-- A discrete step makes every entry no number and returns none, and is no convergence. -/
theorem Lost.advance [Distances α] :
    Scalar.isNaN r.advance.1 = true ∧ (∀ i, Scalar.isNaN (r.advance.2.state.get i) = true) ∧
      r.advance.2.converged = r.converged := by
  have next := r.isNaN_activation lost r.input
  obtain ⟨i, none⟩ := lost
  have delta : r.advance.1 = Scalar.nan :=
    change_of_not_bothFinite
      (not_bothFinite_iff.mpr ⟨i, Or.inl (Scalar.not_finite_of_isNaN none)⟩)
  refine ⟨?_, next, ?_⟩
  · rw [delta]
    exact isNaN_nan
  · show (r.converged || Scalar.lt r.advance.1 r.settings.tolerance) = r.converged
    rw [delta, Scalar.lt_of_isNaN_left isNaN_nan, Bool.or_false]

/-- An integration step with accepted inputs is refused at the first entry. -/
theorem Lost.propagate_eq {x : StageInputs (Given α)} {inputs : StageInputs (Vector α d.inputs)}
    (accepted : x.check d.inputs = .ok inputs) :
    r.propagate x =
      .error ⟨[.task .propagate, .check .finiteVector, .index 0], .notFinite⟩ := by
  have next := r.isNaN_flow lost inputs
  obtain ⟨i, _⟩ := lost
  have first : (r.flow r.state inputs).toArray.findIdx? (fun value => !Scalar.finite value) =
      some 0 := by
    rw [Array.findIdx?_eq_some_iff_getElem]
    have some : 0 < d.latents := Nat.lt_of_le_of_lt (Nat.zero_le _) i.isLt
    refine ⟨by rwa [Vector.size_toArray], ?_, nofun⟩
    exact congrArg (!·) (Scalar.not_finite_of_isNaN (next ⟨0, some⟩))
  unfold propagate
  rw [accepted, Outcome.ok_bind]
  dsimp only
  rw [checkFiniteVector_eq_error first]
  rfl

end Lost

theorem Lost.propagate_fails {r : Reservoir α d} (lost : r.Lost) (x : StageInputs (Given α)) :
    ∃ error, r.propagate x = .error error := by
  cases accepted : x.check d.inputs with
  | ok inputs => exact ⟨_, lost.propagate_eq accepted⟩
  | error error =>
      unfold propagate
      rw [accepted]
      exact ⟨_, rfl⟩

omit [AbsorbingScalar α] in
theorem Lost.afterwards_simulate {r : Reservoir α d} (lost : r.Lost) (inputs : List (Given α)) :
    r.afterwards ((r.simulate inputs).map Prod.snd) = r := by
  by_cases none : inputs = []
  · subst none
    obtain ⟨trajectory, simulated⟩ := r.simulate_nil
    rw [simulated]
    rfl
  · cases accepted : checkSamples (counted inputs) d.inputs with
    | ok samples =>
        obtain ⟨i, refused⟩ := lost.simulate_eq accepted none
        rw [refused]
        rfl
    | error error =>
        unfold simulate
        rw [accepted]
        rfl

end Reservoir

/-! ## Runs from a lost state -/

namespace Machine

/-- None of the operations has put a new state in place. -/
def Undisturbed (operations : List (Operation α)) (replies : List (Reply α)) : Prop :=
  ∀ v, (Operation.assignState v, Reply.done (.ok ())) ∉ operations.zip replies

omit [Scalar α] in
theorem undisturbed_cons {operation : Operation α} {reply : Reply α}
    {operations : List (Operation α)} {replies : List (Reply α)} :
    Undisturbed (operation :: operations) (reply :: replies) ↔
      (∀ v, operation = .assignState v → reply ≠ .done (.ok ())) ∧
        Undisturbed operations replies := by
  unfold Undisturbed
  rw [← forall_and]
  refine forall_congr' fun v => ?_
  rw [List.zip_cons_cons, List.mem_cons, not_or, Prod.mk.injEq]
  grind

omit [Scalar α] in
theorem alike_adopt {m : Machine α d} {attempt : Outcome α (Reservoir α d)}
    (keeps : ∀ next, attempt = .ok next → m.reservoir.Alike next) :
    m.reservoir.Alike (answer (m.adopt attempt)).2.reservoir := by
  cases attempt with
  | error error => exact .refl _
  | ok next => exact keeps next rfl

variable [Distances α] [AbsorbingScalar α]

/-- An operation on a lost state, unless it puts a new one in place, leaves a lost state behind and
does not touch the record of convergence. -/
theorem lost_perform {m : Machine α d} (lost : m.reservoir.Lost) (bound : Nat)
    (operation : Operation α)
    (undisturbed : ∀ v, operation = .assignState v →
      (m.perform bound operation).1 ≠ .done (.ok ())) :
    (m.perform bound operation).2.reservoir.Lost ∧
      (m.perform bound operation).2.reservoir.converged = m.reservoir.converged := by
  have keeps {next : Reservoir α d} (alike : m.reservoir.Alike next) :
      next.Lost ∧ next.converged = m.reservoir.converged :=
    ⟨alike.lost lost, alike.converged_eq⟩
  have step {current : Machine α d} (lost : current.reservoir.Lost) :
      current.advance.2.reservoir.Lost ∧
        current.advance.2.reservoir.converged = current.reservoir.converged := by
    obtain ⟨_, next, same⟩ := lost.advance
    obtain ⟨i, _⟩ := lost
    rw [advance_eq]
    exact ⟨⟨i, next i⟩, same⟩
  cases operation with
  | advance => exact step lost
  | settle signals maxSteps =>
      exact settleLoop_invariant
        (fun current : Machine α d =>
          current.reservoir.Lost ∧ current.reservoir.converged = m.reservoir.converged)
        _ advance (fun current before => ⟨(step before.1).1, (step before.1).2.trans before.2⟩)
        signals maxSteps bound 0 ⟨lost, rfl⟩
  | assignState v =>
      refine keeps (alike_adopt fun next assigned => ?_)
      have replied : (m.perform bound (.assignState v)).1 = .done (.ok ()) := by
        show (answer (m.adopt (m.reservoir.assignState v))).1 = _
        rw [assigned]
        rfl
      exact absurd replied (undisturbed v rfl)
  | assignInput v =>
      exact keeps (alike_adopt fun _ => Reservoir.alike_of_replace fun _ => ⟨rfl, rfl⟩)
  | assignBias v =>
      exact keeps (alike_adopt fun _ => Reservoir.alike_of_replace fun _ => ⟨rfl, rfl⟩)
  | assignRecurrent a =>
      exact keeps (alike_adopt fun _ => Reservoir.alike_of_replace fun _ => ⟨rfl, rfl⟩)
  | assignInputWeights b =>
      exact keeps (alike_adopt fun _ => Reservoir.alike_of_replace fun _ => ⟨rfl, rfl⟩)
  | assignReadoutWeights w =>
      exact keeps (alike_adopt fun _ => Reservoir.alike_of_replace fun _ => ⟨rfl, rfl⟩)
  | propagate x =>
      obtain ⟨error, failed⟩ := lost.propagate_fails x
      have left := (m.propagate_eq x).2
      rw [failed] at left
      exact keeps (left ▸ .refl _)
  | simulate inputs =>
      have left := (m.simulate_eq inputs).2
      rw [lost.afterwards_simulate] at left
      exact keeps (left ▸ .refl _)
  | clone => exact keeps (.refl _)

/-- Operations on a lost state that do not put a new one in place leave a lost state behind. -/
theorem lost_performAll (bound : Nat) (operations : List (Operation α)) {m : Machine α d}
    (lost : m.reservoir.Lost)
    (undisturbed : Undisturbed operations (m.performAll bound operations).1) :
    (m.performAll bound operations).2.reservoir.Lost ∧
      (m.performAll bound operations).2.reservoir.converged = m.reservoir.converged := by
  induction operations generalizing m with
  | nil => exact ⟨lost, rfl⟩
  | cons operation rest ih =>
      obtain ⟨first, later⟩ := undisturbed_cons.mp undisturbed
      obtain ⟨stillLost, same⟩ := lost_perform lost bound operation first
      obtain ⟨lastLost, sameLast⟩ := ih stillLost later
      exact ⟨lastLost, sameLast.trans same⟩

/-- An attempt to settle a machine in a lost state ends at once if the machine has converged before,
and with its first step otherwise. -/
theorem fst_settle_of_lost {m : Machine α d} (lost : m.reservoir.Lost) {bound : Nat}
    {signals : Signals α} (maxSteps : Int) (enough : 0 < bound) (uninterrupted : signals 0 = none) :
    (m.settle bound signals maxSteps).1 =
      some (if m.reservoir.converged then ⟨0, none⟩
        else ⟨1, some ⟨[.task .settle], .notFinite⟩⟩) := by
  obtain ⟨bound, rfl⟩ := Nat.exists_eq_succ_of_ne_zero (Nat.ne_of_gt enough)
  have delta : Scalar.isNaN m.advance.1 = true := by
    rw [advance_eq]
    exact lost.advance.1
  unfold settle settleLoop
  cases flag : m.reservoir.converged with
  | true => rfl
  | false =>
      have unspent : ¬(0 < maxSteps ∧ maxSteps ≤ 0) := by omega
      simp [uninterrupted, unspent, delta]

structure Absorbed (converged : Bool) (m : Machine α d) : Prop where
  lost : m.reservoir.Lost
  converged_eq : m.reservoir.converged = converged
  advance : Scalar.isNaN m.advance.1 = true ∧
    ∀ i, Scalar.isNaN (m.advance.2.reservoir.state.get i) = true
  propagate : ∀ (bound : Nat) {x : Reservoir.StageInputs (Given α)}
      {inputs : Reservoir.StageInputs (Vector α d.inputs)}, x.check d.inputs = .ok inputs →
    (m.perform bound (.propagate x)).1 =
      .done (.error ⟨[.task .propagate, .check .finiteVector, .index 0], .notFinite⟩)
  simulate : ∀ (bound : Nat) {inputs : List (Given α)}, inputs ≠ [] →
      (∀ x ∈ inputs, ∃ v : Vector α d.inputs, x.ofFinite d.inputs = .ok v) →
    ∃ i, (m.perform bound (.simulate inputs)).1 =
      .trajectory (.error ⟨[.task .simulate, .time 0, .cell .set i 0], .notFinite⟩)
  /-- A record of convergence from before is believed; without one the first step ends the
  attempt. -/
  settle : ∀ {bound : Nat} {signals : Signals α} (maxSteps : Int), 0 < bound → signals 0 = none →
    (m.perform bound (.settle signals maxSteps)).1 =
      .settled (some (if converged then ⟨0, none⟩ else ⟨1, some ⟨[.task .settle], .notFinite⟩⟩))

theorem absorbed_of_lost {m : Machine α d} (lost : m.reservoir.Lost) :
    Absorbed m.reservoir.converged m where
  lost
  converged_eq := rfl
  advance := by
    rw [advance_eq]
    exact ⟨lost.advance.1, lost.advance.2.1⟩
  propagate bound {x inputs} accepted := by
    have answered := (m.propagate_eq x).1
    rw [lost.propagate_eq accepted] at answered
    exact congrArg Reply.done answered
  simulate bound {inputs} some each := by
    obtain ⟨samples, accepted⟩ := Reservoir.exists_samples each
    obtain ⟨i, refused⟩ := lost.simulate_eq accepted some
    have answered := (m.simulate_eq inputs).1
    rw [refused] at answered
    exact ⟨i, congrArg Reply.trajectory answered⟩
  settle {bound signals} maxSteps enough uninterrupted := by
    exact congrArg Reply.settled (fst_settle_of_lost lost maxSteps enough uninterrupted)

/-- Once an entry of the state is no number, one is after any operations that do not put a new state
in place: the record of convergence stays as it was, a discrete step spreads to all entries and
returns no number, and integration steps, simulations and attempts to settle fail. -/
theorem absorbed_performAll (bound : Nat) {m : Machine α d} (lost : m.reservoir.Lost)
    (operations : List (Operation α))
    (undisturbed : Undisturbed operations (m.performAll bound operations).1) :
    Absorbed m.reservoir.converged (m.performAll bound operations).2 := by
  obtain ⟨stillLost, same⟩ := lost_performAll bound operations lost undisturbed
  rw [← same]
  exact absorbed_of_lost stillLost

/-- A new bias, a refused state, a step, an attempt to settle and a copy leave a lost state of two
entries lost. -/
theorem absorbed_performAll_binary64 :
    let r := { Reservoir.blank ⟨0, 1, 2⟩ (Settings.standard (α := Float)) with
      state := #v[0.0 / 0.0, 0.5] }
    let operations : List (Operation Float) := [.assignBias (some #[1, 2]),
      .assignState (some #[1]), .advance, .settle .never 0, .clone]
    Absorbed false ((ofReservoir r).performAll 1 operations).2 := by
  intro r operations
  have lost : (ofReservoir r).reservoir.Lost := ⟨0, by decide +kernel⟩
  have undisturbed : Undisturbed operations ((ofReservoir r).performAll 1 operations).1 := by
    refine undisturbed_cons.mpr ⟨nofun, undisturbed_cons.mpr ⟨fun v same replied => ?_, ?_⟩⟩
    · cases replied
    · exact undisturbed_cons.mpr ⟨nofun, undisturbed_cons.mpr ⟨nofun,
        undisturbed_cons.mpr ⟨nofun, nofun⟩⟩⟩
  exact absorbed_performAll 1 lost operations undisturbed

end Machine

end EchoState
