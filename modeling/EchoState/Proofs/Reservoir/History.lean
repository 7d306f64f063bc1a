import EchoState.Proofs.Reservoir.Trace
import EchoState.Scalar.Float

/-!
# Histories

A recorded machine keeps, beside the machine, the changes of state that its discrete steps have
returned so far. Forgetting the record gives the machine back, operation by operation, and a run of
operations is a trace whose changes of state are those that the run has added to the record. The
three entries that a reservoir keeps about its past are functions of the record.
-/

namespace EchoState

/-! ## Attempts to settle -/

section Settle

variable {α σ τ : Type} [Scalar α]

/-- What every step carries holds when an attempt to settle ends. -/
theorem settleLoop_invariant (holds : σ → Prop) (converged : σ → Bool) (step : σ → α × σ)
    (carries : ∀ current, holds current → holds (step current).2) (signals : Signals α)
    (maxSteps : Int) (bound taken : Nat) {machine : σ} (begins : holds machine) :
    holds (settleLoop converged step signals maxSteps bound taken machine).2 := by
  induction bound generalizing taken machine with
  | zero => exact begins
  | succ bound ih =>
      unfold settleLoop
      split
      · exact begins
      · split
        · exact begins
        · split
          · exact begins
          · have stepped := carries machine begins
            dsimp only
            split
            · exact stepped
            · exact ih (taken + 1) stepped

/-- An attempt to settle a machine with something beside it settles the machine in the same way when
each step does. -/
theorem settleLoop_project (project : σ → τ) (converged : τ → Bool) (step : τ → α × τ)
    (stepBeside : σ → α × σ)
    (commutes : ∀ current, Prod.map id project (stepBeside current) = step (project current))
    (signals : Signals α) (maxSteps : Int) (bound taken : Nat) (machine : σ) :
    Prod.map id project (settleLoop (fun current => converged (project current)) stepBeside signals
        maxSteps bound taken machine) =
      settleLoop converged step signals maxSteps bound taken (project machine) := by
  induction bound generalizing taken machine with
  | zero => rfl
  | succ bound ih =>
      unfold settleLoop
      rw [← commutes machine]
      split
      · rfl
      · split
        · rfl
        · split
          · rfl
          · dsimp only [Prod.map, id]
            split
            · rfl
            · exact ih (taken + 1) _

end Settle

variable {α : Type} [Scalar α] {d : Dims}

/-- An attempt to settle a machine is the attempt of its reservoir. -/
theorem Machine.reservoir_settle [Distances α] (m : Machine α d) (bound : Nat) (signals : Signals α)
    (maxSteps : Int) :
    Prod.map id Machine.reservoir (m.settle bound signals maxSteps) =
      m.reservoir.settle bound signals maxSteps := by
  have commutes (current : Machine α d) :
      Prod.map id Machine.reservoir current.advance = current.reservoir.advance := by
    rw [advance_eq]
    rfl
  exact settleLoop_project Machine.reservoir Reservoir.converged Reservoir.advance advance commutes
    signals maxSteps bound 0 m

/-- A machine with the changes of state that its discrete steps have returned so far. -/
structure Recorded (α : Type) (d : Dims) where
  machine : Machine α d
  deltas : List α

namespace Recorded

def ofReservoir (r : Reservoir α d) : Recorded α d :=
  ⟨.ofReservoir r, []⟩

variable [Distances α]

/-- Makes one discrete step and records the change of state that it returns. -/
def advance (recorded : Recorded α d) : α × Recorded α d :=
  let (delta, next) := recorded.machine.advance
  (delta, ⟨next, recorded.deltas ++ [delta]⟩)

def settle (recorded : Recorded α d) (bound : Nat) (signals : Signals α) (maxSteps : Int) :
    Option (Settled α) × Recorded α d :=
  settleLoop (fun current => current.machine.reservoir.converged) advance signals maxSteps bound 0
    recorded

/-- Carries out one operation and records the steps that it makes. -/
def perform (bound : Nat) (recorded : Recorded α d) : Operation α → Reply α × Recorded α d
  | .advance => let (delta, next) := recorded.advance; (.delta delta, next)
  | .settle signals maxSteps =>
      let (ending, next) := recorded.settle bound signals maxSteps
      (.settled ending, next)
  | operation =>
      let (reply, next) := recorded.machine.perform bound operation
      (reply, { recorded with machine := next })

/-- Carries out operations one after another and records their steps. -/
def performAll (bound : Nat) :
    Recorded α d → List (Operation α) → List (Reply α) × Recorded α d
  | recorded, [] => ([], recorded)
  | recorded, operation :: rest =>
      let (reply, next) := recorded.perform bound operation
      let (replies, last) := performAll bound next rest
      (reply :: replies, last)

theorem forget_advance (recorded : Recorded α d) :
    Prod.map id machine recorded.advance = recorded.machine.advance :=
  rfl

/-- An operation does to the machine what it does without a record. -/
theorem forget_perform (bound : Nat) (recorded : Recorded α d) (operation : Operation α) :
    Prod.map id machine (recorded.perform bound operation) =
      recorded.machine.perform bound operation := by
  cases operation with
  | settle signals maxSteps =>
      have settled := settleLoop_project machine (fun current : Machine α d =>
        current.reservoir.converged) Machine.advance advance forget_advance signals maxSteps bound 0
        recorded
      exact congrArg (Prod.map Reply.settled id) settled
  | _ => rfl

theorem forget_performAll (bound : Nat) (recorded : Recorded α d)
    (operations : List (Operation α)) :
    Prod.map id machine (recorded.performAll bound operations) =
      recorded.machine.performAll bound operations := by
  induction operations generalizing recorded with
  | nil => rfl
  | cons operation rest ih =>
      unfold performAll Machine.performAll
      rw [← forget_perform bound recorded operation]
      have onward := ih (recorded.perform bound operation).2
      exact congrArg (Prod.map ((recorded.perform bound operation).1 :: ·) id) onward

def Continues (earlier later : Recorded α d) : Prop :=
  ∃ deltas, later.deltas = earlier.deltas ++ deltas ∧
    Trace earlier.machine.reservoir deltas later.machine.reservoir

theorem Continues.refl (recorded : Recorded α d) : Continues recorded recorded :=
  ⟨[], (List.append_nil _).symm, .refl _⟩

theorem Continues.trans {first middle last : Recorded α d} (left : Continues first middle)
    (right : Continues middle last) : Continues first last := by
  obtain ⟨deltas, middle_eq, leftTrace⟩ := left
  obtain ⟨later, last_eq, rightTrace⟩ := right
  refine ⟨deltas ++ later, ?_, leftTrace.trans rightTrace⟩
  rw [last_eq, middle_eq, List.append_assoc]

theorem continues_advance (recorded : Recorded α d) : Continues recorded recorded.advance.2 := by
  have stepped := (Trace.refl recorded.machine.reservoir).step
  refine ⟨[recorded.machine.reservoir.advance.1], ?_, ?_⟩
  · unfold advance
    rw [Machine.advance_eq]
  · unfold advance
    rw [Machine.advance_eq]
    exact stepped

theorem continues_settle (recorded : Recorded α d) (bound : Nat) (signals : Signals α)
    (maxSteps : Int) : Continues recorded (recorded.settle bound signals maxSteps).2 := by
  refine settleLoop_invariant (Continues recorded) _ advance ?carries signals maxSteps bound 0
    (.refl recorded)
  case carries =>
    intro current before
    exact before.trans (continues_advance current)

end Recorded

def Operation.steps : Operation α → Bool
  | .advance => true
  | .settle _ _ => true
  | _ => false

/-- An operation that makes no discrete steps is a trace without any, whether it succeeds or
fails. -/
theorem Machine.trace_perform [Distances α] (bound : Nat) (m : Machine α d)
    {operation : Operation α} (quiet : operation.steps = false) :
    Trace m.reservoir [] (m.perform bound operation).2.reservoir := by
  cases operation with
  | advance => cases quiet
  | settle signals maxSteps => cases quiet
  | assignState v => exact trace_adopt fun _ => Reservoir.edit_of_assignState
  | assignInput v => exact trace_adopt fun _ => Reservoir.edit_of_assignInput
  | assignBias v => exact trace_adopt fun _ => Reservoir.edit_of_assignBias
  | assignRecurrent a => exact trace_adopt fun _ => Reservoir.edit_of_assignRecurrent
  | assignInputWeights b => exact trace_adopt fun _ => Reservoir.edit_of_assignInputWeights
  | assignReadoutWeights w => exact trace_adopt fun _ => Reservoir.edit_of_assignReadoutWeights
  | propagate x => exact trace_propagate m x
  | simulate inputs => exact trace_simulate m inputs
  | clone => exact .refl _

namespace Recorded

variable [Distances α]

theorem perform_of_quiet (bound : Nat) (recorded : Recorded α d) {operation : Operation α}
    (quiet : operation.steps = false) :
    (recorded.perform bound operation).2 =
      { recorded with machine := (recorded.machine.perform bound operation).2 } := by
  cases operation with
  | advance => cases quiet
  | settle signals maxSteps => cases quiet
  | _ => rfl

theorem continues_perform (bound : Nat) (recorded : Recorded α d) (operation : Operation α) :
    Continues recorded (recorded.perform bound operation).2 := by
  by_cases quiet : operation.steps = false
  · rw [perform_of_quiet bound recorded quiet]
    exact ⟨[], (List.append_nil _).symm, Machine.trace_perform bound recorded.machine quiet⟩
  · cases operation with
    | advance => exact continues_advance recorded
    | settle signals maxSteps => exact continues_settle recorded bound signals maxSteps
    | _ => exact absurd rfl quiet

theorem continues_performAll (bound : Nat) (recorded : Recorded α d)
    (operations : List (Operation α)) :
    Continues recorded (recorded.performAll bound operations).2 := by
  induction operations generalizing recorded with
  | nil => exact .refl recorded
  | cons operation rest ih =>
      exact (continues_perform bound recorded operation).trans
        (ih (recorded.perform bound operation).2)

/-- A run from a reservoir is a trace with the changes of state that end up in the record. -/
theorem trace_performAll (bound : Nat) (r : Reservoir α d) (operations : List (Operation α)) :
    Trace r ((ofReservoir r).performAll bound operations).2.deltas
      ((Machine.ofReservoir r).performAll bound operations).2.reservoir := by
  have forgotten := congrArg Prod.snd (forget_performAll bound (ofReservoir r) operations)
  have machine_eq : ((ofReservoir r).performAll bound operations).2.machine =
      ((Machine.ofReservoir r).performAll bound operations).2 := forgotten
  obtain ⟨deltas, recorded_eq, trace⟩ := continues_performAll bound (ofReservoir r) operations
  rw [recorded_eq, ← machine_eq]
  exact trace

end Recorded

/-! ## The books -/

/-- What a reservoir keeps about its past: whether it has converged, the change of state in its last
step, and the number of its steps. -/
def Reservoir.books (r : Reservoir α d) : Bool × α × Nat :=
  (r.converged, r.lastDelta, r.steps)

/-- The books of a reservoir agree with the changes of state that its steps returned. -/
structure Booked (deltas : List α) (r : Reservoir α d) : Prop where
  steps_eq : r.steps = deltas.length
  lastDelta_eq : r.lastDelta = deltas.getLast?.getD Scalar.inf
  converged_iff :
    r.converged = true ↔ ∃ delta ∈ deltas, Scalar.lt delta r.settings.tolerance = true

theorem Edit.books_eq {r next : Reservoir α d} (replaced : Edit r next) : next.books = r.books := by
  cases replaced <;> rfl

theorem Edit.settings_eq {r next : Reservoir α d} (replaced : Edit r next) :
    next.settings = r.settings := by
  cases replaced <;> rfl

theorem Booked.blank (d : Dims) (settings : Settings α) :
    Booked [] (Reservoir.blank d settings) where
  steps_eq := rfl
  lastDelta_eq := rfl
  converged_iff := by simp [Reservoir.blank]

/-- Books that agree with the record go on to agree when neither they nor the settings change. -/
theorem Booked.of_eq {deltas : List α} {r next : Reservoir α d} (booked : Booked deltas r)
    (sameBooks : next.books = r.books) (sameSettings : next.settings = r.settings) :
    Booked deltas next := by
  simp only [Reservoir.books, Prod.mk.injEq] at sameBooks
  obtain ⟨sameConverged, sameDelta, sameSteps⟩ := sameBooks
  constructor
  · rw [sameSteps]
    exact booked.steps_eq
  · rw [sameDelta]
    exact booked.lastDelta_eq
  · rw [sameConverged, sameSettings]
    exact booked.converged_iff

variable [Distances α]

theorem Booked.advance {deltas : List α} {r : Reservoir α d} (booked : Booked deltas r) :
    Booked (deltas ++ [r.advance.1]) r.advance.2 where
  steps_eq := by
    rw [List.length_append]
    exact congrArg (· + 1) booked.steps_eq
  lastDelta_eq := by
    rw [List.getLast?_concat]
    rfl
  converged_iff := by
    have before := booked.converged_iff
    show (r.converged || Scalar.lt r.advance.1 r.settings.tolerance) = true ↔
      ∃ delta ∈ deltas ++ [r.advance.1], Scalar.lt delta r.settings.tolerance = true
    rw [Bool.or_eq_true, before]
    constructor
    · rintro (⟨delta, isEarlier, below⟩ | below)
      · exact ⟨delta, List.mem_append_left _ isEarlier, below⟩
      · exact ⟨_, List.mem_append_right _ (List.mem_singleton_self _), below⟩
    · rintro ⟨delta, isDelta, below⟩
      rcases List.mem_append.mp isDelta with isEarlier | isLast
      · exact Or.inl ⟨delta, isEarlier, below⟩
      · rw [List.mem_singleton.mp isLast] at below
        exact Or.inr below

/-- Along a trace the books go on to agree with the record. -/
theorem Trace.booked {first last : Reservoir α d} {earlier deltas : List α}
    (trace : Trace first deltas last) (booked : Booked earlier first) :
    Booked (earlier ++ deltas) last := by
  induction trace with
  | refl =>
      rw [List.append_nil]
      exact booked
  | step before ih =>
      rw [← List.append_assoc]
      exact ih.advance
  | edit before replaced ih => exact ih.of_eq replaced.books_eq replaced.settings_eq

theorem Trace.settings_eq {first last : Reservoir α d} {deltas : List α}
    (trace : Trace first deltas last) : last.settings = first.settings := by
  induction trace with
  | refl => rfl
  | step before ih => exact ih
  | edit before replaced ih => exact replaced.settings_eq.trans ih

theorem Trace.converged_of_converged {first last : Reservoir α d} {deltas : List α}
    (trace : Trace first deltas last) (converged : first.converged = true) :
    last.converged = true := by
  induction trace with
  | refl => exact converged
  | step before ih =>
      show (_ || _) = true
      rw [ih]
      rfl
  | edit before replaced ih =>
      have same := congrArg Prod.fst replaced.books_eq
      exact same.trans ih

theorem Trace.books_eq {first last : Reservoir α d} (trace : Trace first [] last) :
    last.books = first.books := by
  generalize noSteps : ([] : List α) = deltas at trace
  induction trace with
  | refl => rfl
  | step before _ => exact absurd noSteps.symm (List.append_ne_nil_of_right_ne_nil _ (by simp))
  | edit before replaced ih => exact replaced.books_eq.trans (ih noSteps)

theorem Origin.booked {settings : Settings α} {r : Reservoir α d} (origin : Origin settings r) :
    Booked [] r ∧ r.settings = settings := by
  obtain ⟨plain, trace, rfl | ⟨given, point, _, anchored⟩⟩ := origin
  · exact ⟨trace.booked (.blank d settings), trace.settings_eq⟩
  · rw [← (Reservoir.anchorWithin_eq_ok_iff.mp anchored).2]
    exact ⟨(trace.booked (.blank d settings)).of_eq rfl rfl, trace.settings_eq⟩

namespace Machine

theorem converged_perform (bound : Nat) (m : Machine α d) (operation : Operation α)
    (converged : m.reservoir.converged = true) :
    (m.perform bound operation).2.reservoir.converged = true := by
  have same := congrArg Prod.snd (Recorded.forget_perform bound ⟨m, []⟩ operation)
  obtain ⟨_, _, trace⟩ := Recorded.continues_perform bound ⟨m, []⟩ operation
  rw [← same]
  exact trace.converged_of_converged converged

theorem books_perform (bound : Nat) (m : Machine α d) {operation : Operation α}
    (quiet : operation.steps = false) :
    (m.perform bound operation).2.reservoir.books = m.reservoir.books :=
  (trace_perform bound m quiet).books_eq

/-- After any run of operations on a constructed reservoir, the number of steps is the length of the
record, the last change of state is the last one recorded, or infinite when there is none, and the
reservoir has converged exactly when some recorded change of state was below the tolerance. No
further operation takes convergence back, and one that makes no discrete steps leaves all three as
they are. -/
theorem performAll_books {settings : Settings α} {r : AnyReservoir α}
    (constructed : Constructed settings r) (bound : Nat) (operations : List (Operation α)) :
    let recorded := (Recorded.ofReservoir r.reservoir).performAll bound operations
    let run := (ofReservoir r.reservoir).performAll bound operations
    let final := run.2
    run = (recorded.1, recorded.2.machine) ∧
      final.reservoir.steps = recorded.2.deltas.length ∧
      final.reservoir.lastDelta = recorded.2.deltas.getLast?.getD Scalar.inf ∧
      (final.reservoir.converged = true ↔
        ∃ delta ∈ recorded.2.deltas, Scalar.lt delta settings.tolerance = true) ∧
      ∀ (limit : Nat) (operation : Operation α),
        (final.reservoir.converged = true →
          (final.perform limit operation).2.reservoir.converged = true) ∧
        (operation.steps = false →
          (final.perform limit operation).2.reservoir.books = final.reservoir.books) := by
  intro recorded run final
  obtain ⟨begins, settings_eq⟩ := constructed.origin.booked
  have trace := Recorded.trace_performAll bound r.reservoir operations
  have booked : Booked recorded.2.deltas final.reservoir := trace.booked begins
  have tolerance_eq : final.reservoir.settings = settings := trace.settings_eq.trans settings_eq
  have converged_iff := booked.converged_iff
  rw [tolerance_eq] at converged_iff
  have forgotten : (recorded.1, recorded.2.machine) = run :=
    Recorded.forget_performAll bound (Recorded.ofReservoir r.reservoir) operations
  refine ⟨forgotten.symm, booked.steps_eq, booked.lastDelta_eq, converged_iff, ?_⟩
  intro limit operation
  exact ⟨converged_perform limit final operation, books_perform limit final⟩

/-- A bias, a step, a refused input, an attempt to settle and a copy, in binary64: two steps are
recorded, and one of them is below the tolerance. -/
theorem performAll_books_binary64 :
    let settings : Settings Float := .standard
    let zeros : Reservoir Float ⟨1, 1, 1⟩ := Reservoir.blank _ settings
    let operations : List (Operation Float) :=
      [.assignBias (some #[32]), .advance, .assignInput none, .settle .never 0, .clone]
    let recorded := ((Recorded.ofReservoir zeros).performAll 3 operations).2
    recorded.deltas.length = 2 ∧
      ∃ delta ∈ recorded.deltas, Scalar.lt delta settings.tolerance = true := by
  intro settings zeros operations recorded
  have constructed : Constructed settings ⟨⟨1, 1, 1⟩, zeros⟩ := .create 1 1 1 rfl
  obtain ⟨_, steps, _, converged, _⟩ := performAll_books constructed 3 operations
  let final := ((ofReservoir zeros).performAll 3 operations).2.reservoir
  have books : final.steps = 2 ∧ final.converged = true := by decide +kernel
  exact ⟨steps.symm.trans books.1, converged.mp books.2⟩

end Machine

end EchoState
