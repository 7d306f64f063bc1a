import EchoState.Proofs.Reservoir.Trace
import EchoState.Scalar.Float
import Mathlib.Data.Nat.Find

/-!
# Where an attempt to settle ends

Counted in steps, four things can end an attempt: the change of state in the step just made is no
number, the machine has converged, the caller asks to stop, or the budget is used up. An attempt
ends at the first count at which one of them holds, and when several hold there, the first of them
in this order decides what it reports. An attempt that none of them ends has no outcome under any
bound.
-/

namespace EchoState

/-! ## The loop -/

section Loop

variable {α σ : Type} [Scalar α]

def stepped (step : σ → α × σ) (machine : σ) : Nat → σ
  | 0 => machine
  | count + 1 => (step (stepped step machine count)).2

/-- The last of so many steps changed the state by what is no number. -/
def lostAt (step : σ → α × σ) (machine : σ) : Nat → Bool
  | 0 => false
  | count + 1 => Scalar.isNaN (step (stepped step machine count)).1

/-- An attempt to settle can end after so many steps. -/
def EndsAt (converged : σ → Bool) (step : σ → α × σ) (signals : Signals α) (maxSteps : Int)
    (machine : σ) (count : Nat) : Prop :=
  lostAt step machine count = true ∨ converged (stepped step machine count) = true ∨
    (signals count).isSome = true ∨ (0 < maxSteps ∧ maxSteps ≤ count)

instance (converged : σ → Bool) (step : σ → α × σ) (signals : Signals α) (maxSteps : Int)
    (machine : σ) (count : Nat) :
    Decidable (EndsAt converged step signals maxSteps machine count) :=
  inferInstanceAs (Decidable (_ ∨ _ ∨ _ ∨ _))

def failureAt (converged : σ → Bool) (step : σ → α × σ) (signals : Signals α) (machine : σ)
    (count : Nat) : Option (Error α) :=
  if lostAt step machine count then some ⟨[.task .settle], .notFinite⟩
  else if converged (stepped step machine count) then none
  else
    match signals count with
    | some error => some (error.within (.task .settle))
    | none => some ⟨[.task .settle], .notConverged⟩

variable {converged : σ → Bool} {step : σ → α × σ} {signals : Signals α} {maxSteps : Int}
  {machine : σ}

/-- At the head of the loop, a count that cannot end the attempt is followed by a step. -/
theorem settleLoop_of_not_endsAt {count : Nat}
    (goesOn : ¬EndsAt converged step signals maxSteps machine count) (bound : Nat) :
    settleLoop converged step signals maxSteps (bound + 1) count (stepped step machine count) =
      if lostAt step machine (count + 1) then
        (some ⟨count + 1, some ⟨[.task .settle], .notFinite⟩⟩, stepped step machine (count + 1))
      else
        settleLoop converged step signals maxSteps bound (count + 1)
          (stepped step machine (count + 1)) := by
  unfold EndsAt at goesOn
  simp only [not_or] at goesOn
  obtain ⟨_, notConverged, notAsked, notSpent⟩ := goesOn
  have silent : signals count = none := Option.not_isSome_iff_eq_none.mp notAsked
  rw [settleLoop, if_neg notConverged, silent]
  dsimp only
  rw [if_neg notSpent]
  rfl

theorem failureAt_of_lost {count : Nat} (lost : lostAt step machine count = true) :
    failureAt converged step signals machine count = some ⟨[.task .settle], .notFinite⟩ := by
  rw [failureAt, if_pos lost]

theorem failureAt_of_converged {count : Nat} (kept : lostAt step machine count = false)
    (done : converged (stepped step machine count) = true) :
    failureAt converged step signals machine count = none := by
  simp [failureAt, kept, done]

theorem failureAt_of_interrupted {count : Nat} {error : Error α}
    (kept : lostAt step machine count = false)
    (notDone : converged (stepped step machine count) = false)
    (asked : signals count = some error) :
    failureAt converged step signals machine count = some (error.within (.task .settle)) := by
  simp [failureAt, kept, notDone, asked]

theorem failureAt_of_spent {count : Nat} (kept : lostAt step machine count = false)
    (notDone : converged (stepped step machine count) = false) (silent : signals count = none) :
    failureAt converged step signals machine count = some ⟨[.task .settle], .notConverged⟩ := by
  simp [failureAt, kept, notDone, silent]

/-- From the head of the loop, an attempt goes on to the first count that can end it. -/
theorem settleLoop_of_endsAt {last : Nat}
    (ends : EndsAt converged step signals maxSteps machine last) {bound count : Nat}
    (kept : lostAt step machine count = false) (ahead : count ≤ last)
    (enough : last < count + bound)
    (earlier : ∀ i < last, ¬EndsAt converged step signals maxSteps machine i) :
    settleLoop converged step signals maxSteps bound count (stepped step machine count) =
      (some ⟨last, failureAt converged step signals machine last⟩, stepped step machine last) := by
  induction bound generalizing count with
  | zero => exact absurd enough (by omega)
  | succ bound ih =>
      rcases Nat.lt_or_eq_of_le ahead with before | rfl
      · rw [settleLoop_of_not_endsAt (earlier count before)]
        cases lost : lostAt step machine (count + 1) with
        | true =>
            -- a change that is no number ends the attempt at once, so this is the last count
            have here : last = count + 1 := by
              rcases Nat.lt_or_eq_of_le before with after | same
              · exact absurd (Or.inl lost) (earlier (count + 1) after)
              · exact same.symm
            subst here
            rw [if_pos rfl, failureAt_of_lost lost]
        | false => exact ih lost before (by omega)
      · rw [settleLoop]
        cases settled : converged (stepped step machine count) with
        | true => rw [if_pos rfl, failureAt_of_converged kept settled]
        | false =>
            rw [if_neg Bool.false_ne_true]
            cases asked : signals count with
            | some error => rw [failureAt_of_interrupted kept settled asked]
            | none =>
                have spent : 0 < maxSteps ∧ maxSteps ≤ count := by
                  simpa [EndsAt, kept, settled, asked] using ends
                dsimp only
                rw [if_pos spent, failureAt_of_spent kept settled asked]

/-- An attempt that nothing can end outlasts every bound. -/
theorem settleLoop_of_endless
    (endless : ∀ i, ¬EndsAt converged step signals maxSteps machine i) (bound count : Nat) :
    (settleLoop converged step signals maxSteps bound count (stepped step machine count)).1 =
      none := by
  induction bound generalizing count with
  | zero => rfl
  | succ bound ih =>
      have kept : ¬lostAt step machine (count + 1) = true := fun lost =>
        endless (count + 1) (Or.inl lost)
      rw [settleLoop_of_not_endsAt (endless count), if_neg kept]
      exact ih (count + 1)

/-- A positive budget ends every attempt, and no later than it is used up. -/
theorem exists_first_endsAt (positive : 0 < maxSteps) :
    ∃ last : Nat, (last : Int) ≤ maxSteps ∧ EndsAt converged step signals maxSteps machine last ∧
      ∀ i < last, ¬EndsAt converged step signals maxSteps machine i := by
  have spent : EndsAt converged step signals maxSteps machine maxSteps.toNat :=
    Or.inr (Or.inr (Or.inr ⟨positive, by omega⟩))
  have some : ∃ i, EndsAt converged step signals maxSteps machine i := ⟨_, spent⟩
  have atMost := Nat.find_min' some spent
  exact ⟨Nat.find some, by omega, Nat.find_spec some, fun i before => Nat.find_min some before⟩

theorem converged_of_failureAt_eq_none {count : Nat}
    (succeeded : failureAt converged step signals machine count = none) :
    converged (stepped step machine count) = true := by
  unfold failureAt at succeeded
  split at succeeded
  · cases succeeded
  · split at succeeded
    · assumption
    · split at succeeded
      · cases succeeded
      · cases succeeded

end Loop

/-! ## Machines -/

namespace Machine

variable {α : Type} [Scalar α] [Distances α] {d : Dims}

theorem settings_stepped (m : Machine α d) (count : Nat) :
    (stepped advance m count).reservoir.settings = m.reservoir.settings := by
  induction count with
  | zero => rfl
  | succ count ih =>
      rw [stepped, advance_eq]
      exact ih

/-- The step with which a machine converges changed the state by less than the tolerance. -/
theorem lastDelta_lt_of_converges {m : Machine α d} {count : Nat}
    (before : ¬(stepped advance m count).reservoir.converged = true)
    (after : (stepped advance m (count + 1)).reservoir.converged = true) :
    Scalar.lt (stepped advance m (count + 1)).reservoir.lastDelta m.reservoir.settings.tolerance =
      true := by
  rw [← settings_stepped m count]
  rw [stepped, advance_eq] at after ⊢
  have either : ((stepped advance m count).reservoir.converged || Scalar.lt
      (stepped advance m count).reservoir.advance.1
      (stepped advance m count).reservoir.settings.tolerance) = true := after
  rw [Bool.or_eq_true] at either
  exact either.resolve_left before

/-- An attempt to settle a machine takes as many steps as lead to the first count that can end it,
leaves what these steps lead to, and reports what decides there; it takes no more steps than a
positive budget has, which always ends it, and after a success that took a step the last change of
state is below the tolerance. A machine that has converged is left as it is, whatever the caller
signals. An attempt that no count can end outlasts every bound. -/
theorem settle_eq_of_first_end (m : Machine α d) (signals : Signals α) (maxSteps : Int) :
    let converged := fun machine : Machine α d => machine.reservoir.converged
    let Ends := EndsAt converged advance signals maxSteps m
    (∀ last : Nat, Ends last → (∀ i < last, ¬Ends i) →
      (∀ bound, last < bound → m.settle bound signals maxSteps =
        (some ⟨last, failureAt converged advance signals m last⟩, stepped advance m last)) ∧
      (0 < maxSteps → (last : Int) ≤ maxSteps) ∧
      (failureAt converged advance signals m last = none → 1 ≤ last →
        Scalar.lt (stepped advance m last).reservoir.lastDelta m.reservoir.settings.tolerance)) ∧
    (0 < maxSteps → ∃ last, Ends last ∧ ∀ i < last, ¬Ends i) ∧
    (m.reservoir.converged = true →
      ∀ bound, 0 < bound → m.settle bound signals maxSteps = (some ⟨0, none⟩, m)) ∧
    ((∀ i, ¬Ends i) → ∀ bound, (m.settle bound signals maxSteps).1 = none) := by
  intro converged Ends
  refine ⟨?first, ?budget, ?already, ?endless⟩
  case first =>
    intro last ends earlier
    refine ⟨?_, ?_, ?_⟩
    · intro bound enough
      exact settleLoop_of_endsAt ends rfl (Nat.zero_le last) (by omega) earlier
    · intro positive
      have limited : ∃ first : Nat, (first : Int) ≤ maxSteps ∧ Ends first ∧
          ∀ i < first, ¬Ends i := exists_first_endsAt positive
      obtain ⟨first, atMost, firstEnds, _⟩ := limited
      have ordered : last ≤ first := Nat.le_of_not_lt fun before => earlier first before firstEnds
      omega
    · intro succeeded some
      obtain ⟨count, rfl⟩ : ∃ count, last = count + 1 := ⟨last - 1, by omega⟩
      have after := converged_of_failureAt_eq_none succeeded
      have before : ¬converged (stepped advance m count) = true := fun done =>
        earlier count (Nat.lt_succ_self count) (Or.inr (Or.inl done))
      exact lastDelta_lt_of_converges before after
  case budget =>
    intro positive
    have limited : ∃ first : Nat, (first : Int) ≤ maxSteps ∧ Ends first ∧
        ∀ i < first, ¬Ends i := exists_first_endsAt positive
    obtain ⟨last, _, ends, earlier⟩ := limited
    exact ⟨last, ends, earlier⟩
  case already =>
    intro done bound positive
    obtain ⟨more, rfl⟩ : ∃ more, bound = more + 1 := ⟨bound - 1, by omega⟩
    unfold settle settleLoop
    rw [if_pos done]
  case endless =>
    intro endless bound
    exact settleLoop_of_endless endless bound 0

/-- Three ends of one binary64 reservoir whose first step moves the state to one: it has converged
after two steps, where the caller asks to stop and the budget is used up as well; with a budget of
one step it has not, and when the caller asks first, that is reported. -/
theorem settle_eq_of_first_end_binary64 :
    let m := ofReservoir
      { Reservoir.blank ⟨0, 1, 1⟩ (Settings.standard : Settings Float) with bias := #v[32] }
    m.settle 9 (.after 2 .canceled) 2 = (some ⟨2, none⟩, stepped advance m 2) ∧
      m.settle 9 .never 1 =
        (some ⟨1, some ⟨[.task .settle], .notConverged⟩⟩, stepped advance m 1) ∧
      m.settle 9 (.after 1 .canceled) 1 =
        (some ⟨1, some ⟨[.task .settle], .interrupted .canceled⟩⟩, stepped advance m 1) := by
  intro m
  let converged := fun machine : Machine Float ⟨0, 1, 1⟩ => machine.reservoir.converged
  have one : lostAt advance m 1 = false ∧ converged (stepped advance m 1) = false := by
    decide +kernel
  have two : lostAt advance m 2 = false ∧ converged (stepped advance m 2) = true := by
    decide +kernel
  have first := (settle_eq_of_first_end m (.after 2 .canceled) 2).1 2 (by decide +kernel)
    (by decide +kernel)
  have second := (settle_eq_of_first_end m .never 1).1 1 (by decide +kernel) (by decide +kernel)
  have third := (settle_eq_of_first_end m (.after 1 .canceled) 1).1 1 (by decide +kernel)
    (by decide +kernel)
  rw [failureAt_of_converged two.1 two.2] at first
  rw [failureAt_of_spent one.1 one.2 rfl] at second
  rw [failureAt_of_interrupted one.1 one.2 rfl] at third
  exact ⟨first.1 9 (by decide), second.1 9 (by decide), third.1 9 (by decide)⟩

end Machine

end EchoState
