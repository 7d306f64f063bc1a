import EchoState.Proofs.Reservoir.Trace

/-!
# Machines and their reservoirs

Every buffer of a machine is overwritten before it is read. So what an operation answers, and what
it leaves of the reservoir, are what the reservoir alone decides: an integration step in place is a
step of the continuous dynamics, and an integration over samples records the orbit of the state up
to the first state that is not finite. An attempt that fails leaves the reservoir it began with.
-/

namespace EchoState

variable {α : Type} [Scalar α] {d : Dims}

namespace Reservoir

/-- What there is after an attempt: its result, or the same reservoir when it failed. -/
def afterwards (r : Reservoir α d) : Outcome α (Reservoir α d) → Reservoir α d
  | .error _ => r
  | .ok next => next

/-- The state after holding each of the samples for one step. -/
def flowAlong (r : Reservoir α d) (state : Vector α d.latents)
    (samples : List (Vector α d.inputs)) : Vector α d.latents :=
  samples.foldl (fun current x => r.flow current (.held x)) state

/-- The states that the orbit lists are those reached along the earlier samples. -/
theorem getElem_orbit (r : Reservoir α d) (state : Vector α d.latents)
    (samples : List (Vector α d.inputs)) (t : Nat) (inside : t < (r.orbit state samples).length) :
    (r.orbit state samples)[t] = r.flowAlong state (samples.take t) := by
  induction samples generalizing state t with
  | nil => simp at inside
  | cons x rest ih =>
      cases rest with
      | nil =>
          have first : t = 0 := by simpa using inside
          subst first
          rfl
      | cons y others =>
          cases t with
          | zero => rfl
          | succ t => exact ih (r.flow state (.held x)) t (by simpa using inside)

theorem findFinIdx?_eq_none_of_allFinite {n : Nat} {v : Vector α n}
    (finite : AllFinite v.toArray) :
    (v.findFinIdx? fun value => !Scalar.finite value) = none := by
  rw [Vector.findFinIdx?_eq_none_iff]
  intro value isEntry
  simp [finite value ((Vector.mem_toArray_iff _ v).mpr isEntry)]

theorem firstNonFinite?_eq_none {states : List (Vector α d.latents)}
    (finite : ∀ state ∈ states, AllFinite state.toArray) : firstNonFinite? states = none := by
  unfold firstNonFinite?
  rw [List.findSome?_eq_none_iff]
  rintro ⟨state, t⟩ listed
  have isState := finite state (List.fst_mem_of_mem_zipIdx listed)
  exact Option.map_eq_none_iff.mpr (findFinIdx?_eq_none_of_allFinite isState)

/-- The search stops at the first state that is not finite, and there at its first such entry. -/
theorem firstNonFinite?_eq_some {states : List (Vector α d.latents)} {t : Nat}
    {i : Fin d.latents} (inside : t < states.length)
    (finite : ∀ s (earlier : s < t), AllFinite (states[s]).toArray)
    (found : ((states[t]).findFinIdx? fun value => !Scalar.finite value) = some i) :
    firstNonFinite? states = some (t, i) := by
  -- the places of a list are counted from any start on
  suffices counted : ∀ start, ((states.zipIdx start).findSome? fun entry =>
      (entry.1.findFinIdx? fun value => !Scalar.finite value).map fun i => (entry.2, i)) =
        some (start + t, i) by
    simpa [firstNonFinite?] using counted 0
  induction states generalizing t with
  | nil => exact absurd inside (Nat.not_lt_zero t)
  | cons state rest ih =>
      intro start
      rw [List.zipIdx_cons, List.findSome?_cons]
      cases t with
      | zero =>
          have here : (state.findFinIdx? fun value => !Scalar.finite value) = some i := found
          dsimp only
          rw [here]
          rfl
      | succ t =>
          have skipped := findFinIdx?_eq_none_of_allFinite (finite 0 (Nat.succ_pos t))
          simp only [List.getElem_cons_zero] at skipped
          dsimp only
          rw [skipped, Option.map_none]
          have onward := ih (Nat.lt_of_succ_lt_succ inside)
            (fun s earlier => finite (s + 1) (Nat.succ_lt_succ earlier)) found (start + 1)
          rw [show start + (t + 1) = start + 1 + t by omega]
          exact onward

def stateBefore {samples : Nat} (r : Reservoir α d) (inputs : Vector (Vector α d.inputs) samples)
    (t : Nat) : Vector α d.latents :=
  r.flowAlong r.state (inputs.toList.take t)

theorem stateBefore_succ {samples : Nat} (r : Reservoir α d)
    (inputs : Vector (Vector α d.inputs) samples) (t : Nat) (inside : t < samples) :
    r.stateBefore inputs (t + 1) = r.flow (r.stateBefore inputs t) (.held inputs[t]) := by
  have listed : t < inputs.toList.length := by simpa using inside
  unfold stateBefore flowAlong
  rw [List.take_add_one, List.getElem?_eq_getElem listed, List.foldl_append]
  simp

theorem getElem_orbit_toList {samples : Nat} (r : Reservoir α d)
    (inputs : Vector (Vector α d.inputs) samples) (t : Nat)
    (inside : t < (r.orbit r.state inputs.toList).length) :
    (r.orbit r.state inputs.toList)[t] = r.stateBefore inputs t :=
  r.getElem_orbit r.state inputs.toList t inside

/-- The last state of the orbit, where the simulation stops; without samples, the first state. -/
theorem getLast_orbit {samples : Nat} (r : Reservoir α d)
    (inputs : Vector (Vector α d.inputs) samples) :
    (r.orbit r.state inputs.toList).getLast?.getD r.state = r.stateBefore inputs (samples - 1) := by
  have count : (r.orbit r.state inputs.toList).length = samples := by simp
  rw [List.getLast?_eq_getElem?, count]
  cases samples with
  | zero =>
      rw [List.getElem?_eq_none (by omega)]
      rfl
  | succ samples =>
      rw [List.getElem?_eq_getElem (by omega), getElem_orbit_toList]
      rfl

/-- A simulation through finite states reads out the states before its samples and stops in the
last of them. -/
theorem simulate_of_finite {r : Reservoir α d} {inputs : List (Given α)}
    {samples : Vector (Vector α d.inputs) inputs.length}
    (accepted : checkSamples (counted inputs) d.inputs = .ok samples)
    (finite : ∀ t < inputs.length, AllFinite (r.stateBefore samples t).toArray) :
    r.simulate inputs =
      .ok (r.readoutWeights.mul (.whole (.ofFn fun i t => (r.stateBefore samples t).get i)),
        { r with state := r.stateBefore samples (inputs.length - 1) }) := by
  have count : (r.orbit r.state samples.toList).length = inputs.length := by simp
  have through : firstNonFinite? (r.orbit r.state samples.toList) = none := by
    apply firstNonFinite?_eq_none
    intro state listed
    obtain ⟨t, inside, rfl⟩ := List.mem_iff_getElem.mp listed
    rw [getElem_orbit_toList]
    exact finite t (by rwa [count] at inside)
  have columns : Grid.ofColumns ⟨(r.orbit r.state samples.toList).toArray, by simp⟩ =
      Grid.ofFn fun i (t : Fin inputs.length) => (r.stateBefore samples t).get i := by
    apply Grid.ext_get
    intro i t
    have inside : t.val < (r.orbit r.state samples.toList).length := by
      rw [count]
      exact t.isLt
    rw [Grid.get_ofColumns, Grid.get_ofFn, ← getElem_orbit_toList _ _ _ inside]
    rfl
  unfold simulate
  rw [accepted, Outcome.ok_bind]
  dsimp only
  rw [through, columns, getLast_orbit]
  rfl

/-- A simulation that meets a state that is not finite reports the first one. -/
theorem simulate_of_nonFinite {r : Reservoir α d} {inputs : List (Given α)}
    {samples : Vector (Vector α d.inputs) inputs.length} {t : Nat} {i : Fin d.latents}
    (accepted : checkSamples (counted inputs) d.inputs = .ok samples) (inside : t < inputs.length)
    (finite : ∀ s < t, AllFinite (r.stateBefore samples s).toArray)
    (found : ((r.stateBefore samples t).findFinIdx? fun value => !Scalar.finite value) = some i) :
    r.simulate inputs = .error ⟨[.task .simulate, .time t, .cell .set i t], .notFinite⟩ := by
  have count : (r.orbit r.state samples.toList).length = inputs.length := by simp
  have stops : firstNonFinite? (r.orbit r.state samples.toList) = some (t, i) := by
    apply firstNonFinite?_eq_some (by rw [count]; exact inside)
    · intro s earlier
      rw [getElem_orbit_toList]
      exact finite s earlier
    · rw [getElem_orbit_toList]
      exact found
  unfold simulate
  rw [accepted, Outcome.ok_bind]
  dsimp only
  rw [stops]
  rfl

end Reservoir

/-! ## Integration steps -/

namespace Machine

omit [Scalar α] in
@[simp]
theorem copyInto_eq {n : Nat} (buffer source : Vector α n) : copyInto buffer source = source := by
  apply Vector.ext
  intro i inside
  simp [copyInto]

theorem driftInto_eq (r : Reservoir α d) (buffer state : Vector α d.latents)
    (input : Vector α d.inputs) : driftInto r buffer state input = r.drift state input := by
  apply Vector.ext
  intro i inside
  simp [driftInto, Reservoir.drift, activateInto_eq]

theorem addScaledInto_eq {n : Nat} (buffer y : Vector α n) (factor : α) (s : Vector α n) :
    addScaledInto buffer y factor s = Reservoir.addScaled y factor s := by
  apply Vector.ext
  intro i inside
  simp [addScaledInto, Reservoir.addScaled]

theorem addScaledTo_eq {n : Nat} (buffer : Vector α n) (factor : α) (s : Vector α n) :
    addScaledTo buffer factor s = Reservoir.addScaled buffer factor s := by
  apply Vector.ext
  intro i inside
  simp [addScaledTo, Reservoir.addScaled]

theorem reservoir_flow (m : Machine α d) (x : Reservoir.StageInputs (Vector α d.inputs)) :
    (m.flow x).reservoir =
      { m.reservoir with state := m.reservoir.flow m.reservoir.state x } := by
  unfold flow Reservoir.flow
  simp only [driftInto_eq, addScaledInto_eq, addScaledTo_eq]

omit [Scalar α] in
theorem reservoir_restore (m : Machine α d) (state : Vector α d.latents) :
    (m.restore state).reservoir = { m.reservoir with state } := by
  unfold restore
  rw [copyInto_eq]

/-- A checked step answers as the reservoir does, and leaves what the reservoir would be. -/
theorem propagate_eq (m : Machine α d) (x : Reservoir.StageInputs (Given α)) :
    (m.propagate x).1 = (m.reservoir.propagate x).map (fun _ => ()) ∧
      (m.propagate x).2.reservoir = m.reservoir.afterwards (m.reservoir.propagate x) := by
  unfold propagate Reservoir.propagate
  cases x.check d.inputs with
  | error error => exact ⟨rfl, rfl⟩
  | ok inputs =>
      simp only [reservoir_flow, Outcome.ok_bind]
      cases checkFiniteVector (m.reservoir.flow m.reservoir.state inputs).toArray with
      | error error =>
          -- the state to go back to was kept in the spare buffer, which the step does not touch
          refine ⟨rfl, ?_⟩
          show (restore _ _).reservoir = m.reservoir
          rw [reservoir_restore, reservoir_flow]
          show { m.reservoir with state := copyInto m.spare m.reservoir.state } = m.reservoir
          rw [copyInto_eq]
      | ok done =>
          refine ⟨rfl, ?_⟩
          show (flow _ _).reservoir = _
          rw [reservoir_flow]
          rfl

/-! ## Integration over samples -/

/-- A state is recorded in its column when it is finite; otherwise the first entry that is not is
reported. -/
theorem recordState_cases {n samples : Nat} (state : Vector α n) (t : Fin samples)
    (record : Grid α n samples) :
    (AllFinite state.toArray ∧ ∃ written, recordState state t record = .ok written ∧
        ∀ i s, written.get i s = if s = t then state.get i else record.get i s) ∨
      ∃ i, (state.findFinIdx? fun value => !Scalar.finite value) = some i ∧
        recordState state t record = .error ⟨[.cell .set i t], .notFinite⟩ := by
  -- after `count` entries: all of them were finite and are written, or one of them was reported
  have carried := fold_invariant
    (fun count (outcome : Outcome α (Grid α n samples)) =>
      ((∀ i : Fin n, i.val < count → Scalar.finite (state.get i) = true) ∧
        ∃ written, outcome = .ok written ∧ ∀ i s, written.get i s =
          if i.val < count ∧ s = t then state.get i else record.get i s) ∨
      ∃ i, (state.findFinIdx? fun value => !Scalar.finite value) = some i ∧
        outcome = .error ⟨[.cell .set i t], .notFinite⟩)
    (fun i inside outcome => do (← outcome).store ⟨i, inside⟩ t state[i]) (.ok record)
    (by simp) ?carries
  case carries =>
    intro count inside outcome before
    rcases before with ⟨finite, written, rfl, entries⟩ | ⟨i, found, rfl⟩
    · simp only [Outcome.ok_bind, Grid.store]
      by_cases here : Scalar.finite state[count] = true
      · rw [if_pos here]
        refine Or.inl ⟨?_, _, rfl, ?_⟩
        · intro i upTo
          rcases Nat.lt_succ_iff_lt_or_eq.mp upTo with earlier | last
          · exact finite i earlier
          · have place : i = ⟨count, inside⟩ := Fin.ext last
            rw [place]
            exact here
        · intro i s
          rw [Grid.get_set, entries]
          by_cases last : ⟨count, inside⟩ = i
          · subst last
            simp [eq_comm]
          · have apart : i.val ≠ count := fun same => last (Fin.ext same.symm)
            have upTo : i.val < count + 1 ↔ i.val < count := by omega
            simp [last, upTo]
      · rw [if_neg here]
        refine Or.inr ⟨⟨count, inside⟩, ?_, rfl⟩
        rw [findFinIdx?_eq_some_iff]
        exact ⟨by simpa using here, fun j earlier => by simp [finite j earlier]⟩
    · exact Or.inr ⟨i, found, rfl⟩
  rcases carried with ⟨finite, written, recorded, entries⟩ | reported
  · refine Or.inl ⟨(allFinite_vector_iff state).mpr fun i => finite i i.isLt, written, recorded, ?_⟩
    intro i s
    rw [entries]
    simp [i.isLt]
  · exact Or.inr reported

/-- Where an integration stands after some of its samples: the states before them are finite and
recorded, or the first of them that is not finite was reported. -/
inductive Integrated {samples : Nat} (r : Reservoir α d)
    (inputs : Vector (Vector α d.inputs) samples) (count : Nat) :
    Outcome α (Grid α d.latents samples) × Machine α d → Prop where
  | recorded {record : Grid α d.latents samples} {machine : Machine α d}
      (finite : ∀ t < count, AllFinite (r.stateBefore inputs t).toArray)
      (columns : ∀ i (t : Fin samples), t.val < count →
        record.get i t = (r.stateBefore inputs t).get i)
      (reservoir_eq : machine.reservoir = { r with state := r.stateBefore inputs (count - 1) }) :
      Integrated r inputs count (.ok record, machine)
  | reported {t : Nat} {i : Fin d.latents} {machine : Machine α d} (inside : t < count)
      (finite : ∀ s < t, AllFinite (r.stateBefore inputs s).toArray)
      (found : ((r.stateBefore inputs t).findFinIdx? fun value => !Scalar.finite value) = some i)
      (restorable : ∃ state, machine.reservoir = { r with state }) :
      Integrated r inputs count (.error ⟨[.time t, .cell .set i t], .notFinite⟩, machine)

/-- An integration goes through all of its samples in this way. -/
theorem integrated {samples : Nat} (m : Machine α d)
    (inputs : Vector (Vector α d.inputs) samples) :
    Integrated m.reservoir inputs samples (m.integrate inputs) := by
  unfold integrate
  refine fold_invariant (Integrated m.reservoir inputs) _ _ ?begins ?carries
  case begins =>
    exact .recorded (fun t none => absurd none (Nat.not_lt_zero t))
      (fun i t none => absurd none (Nat.not_lt_zero t)) rfl
  case carries =>
    intro count inside current before
    cases before with
    | reported earlier finite found restorable =>
        exact .reported (Nat.lt_succ_of_lt earlier) finite found restorable
    | @recorded record machine finite columns reservoir_eq =>
        dsimp only
        -- the machine that is asked for its state has just made the step to this sample
        have reached : (if count = 0 then machine
            else machine.flow (.held inputs[count - 1])).reservoir =
              { m.reservoir with state := m.reservoir.stateBefore inputs count } := by
          cases count with
          | zero => exact reservoir_eq
          | succ count =>
              rw [if_neg (Nat.succ_ne_zero count), reservoir_flow, reservoir_eq,
                Reservoir.stateBefore_succ _ _ _ (by omega)]
              rfl
        rw [reached]
        rcases recordState_cases (m.reservoir.stateBefore inputs count) ⟨count, inside⟩ record with
          ⟨here, written, recorded, entries⟩ | ⟨i, found, reported⟩
        · rw [recorded]
          refine .recorded ?_ ?_ reached
          · intro t upTo
            rcases Nat.lt_succ_iff_lt_or_eq.mp upTo with earlier | rfl
            · exact finite t earlier
            · exact here
          · intro i t upTo
            rw [entries]
            by_cases last : t = ⟨count, inside⟩
            · rw [if_pos last, last]
            · have apart : t.val ≠ count := fun same => last (Fin.ext same)
              rw [if_neg last]
              exact columns i t (by omega)
        · rw [reported]
          exact .reported (Nat.lt_succ_self count) finite found ⟨_, reached⟩

/-- The readout of a record cannot fail: a record has a row for each latent variable. -/
theorem product_record {samples : Nat} (r : Reservoir α d) (record : Grid α d.latents samples) :
    (Operand.stored ⟨d.outputs, d.latents, r.readoutWeights⟩).product (.stored (.ofGrid record)) =
      .ok ⟨d.outputs, samples, r.readoutWeights.mul (.whole record)⟩ := by
  unfold Operand.product Matrix.ofGrid
  simp

/-- A simulation answers as the reservoir does, and leaves what the reservoir would be. -/
theorem simulate_eq (m : Machine α d) (inputs : List (Given α)) :
    (m.simulate inputs).1 = (m.reservoir.simulate inputs).map
        (fun result => ⟨d.outputs, inputs.length, result.1⟩) ∧
      (m.simulate inputs).2.reservoir =
        m.reservoir.afterwards ((m.reservoir.simulate inputs).map Prod.snd) := by
  unfold simulate
  cases accepted : Reservoir.checkSamples (Reservoir.counted inputs) d.inputs with
  | error error =>
      unfold Reservoir.simulate
      rw [accepted]
      exact ⟨rfl, rfl⟩
  | ok samples =>
      have progress := integrated m samples
      dsimp only
      generalize m.integrate samples = current at progress ⊢
      cases progress with
      | reported inside finite found restorable =>
          obtain ⟨state, reservoir_eq⟩ := restorable
          rw [Reservoir.simulate_of_nonFinite accepted inside finite found]
          refine ⟨rfl, ?_⟩
          show (restore _ _).reservoir = m.reservoir
          rw [reservoir_restore, reservoir_eq, copyInto_eq]
      | @recorded record machine finite columns reservoir_eq =>
          have record_eq : record = Grid.ofFn fun i (t : Fin inputs.length) =>
              (m.reservoir.stateBefore samples t).get i := by
            apply Grid.ext_get
            intro i t
            rw [columns i t t.isLt, Grid.get_ofFn]
          rw [Reservoir.simulate_of_finite accepted finite, ← record_eq]
          dsimp only
          rw [product_record]
          exact ⟨rfl, reservoir_eq⟩

end Machine

end EchoState
