import EchoState.Error

/-!
# Loops and outcomes

The rules by which counted loops and checks in sequence are taken apart. What holds before a loop,
and is carried by each pass from one count to the next, holds at the end of the loop. A sequence of
checks succeeds exactly when each of them does, and the place in which an error is reported does
not decide whether there is one. Two sequences whose checks correspond have corresponding outcomes.
-/

namespace EchoState

/-- What each pass carries from its count to the next one holds after the loop. -/
theorem fold_invariant {σ : Type} (holds : Nat → σ → Prop) {n : Nat}
    (pass : (i : Nat) → i < n → σ → σ) (start : σ)
    (begins : holds 0 start)
    (carries : ∀ (i : Nat) (inside : i < n) (current : σ),
      holds i current → holds (i + 1) (pass i inside current)) :
    holds n (n.fold pass start) := by
  induction n with
  | zero => exact begins
  | succ n ih =>
      rw [Nat.fold_succ]
      apply carries
      exact ih _ fun i inside current before => carries i (Nat.lt_succ_of_lt inside) current before

/-- What is looked at in each pass changes by a rule of its own, and so does it over the loop. -/
theorem fold_project {σ τ : Type} (project : σ → τ) {n : Nat} (pass : (i : Nat) → i < n → σ → σ)
    (seen : (i : Nat) → i < n → τ → τ)
    (commutes : ∀ (i : Nat) (inside : i < n) (current : σ),
      project (pass i inside current) = seen i inside (project current)) (start : σ) :
    project (n.fold pass start) = n.fold seen (project start) := by
  induction n with
  | zero => rfl
  | succ n ih =>
      rw [Nat.fold_succ, Nat.fold_succ, commutes]
      congr 1
      exact ih _ _ fun i inside current => commutes i (Nat.lt_succ_of_lt inside) current

namespace Outcome

variable {α β γ : Type}

theorem bind_eq_ok_iff {outcome : Outcome α β} {next : β → Outcome α γ} {result : γ} :
    outcome >>= next = .ok result ↔ ∃ value, outcome = .ok value ∧ next value = .ok result := by
  cases outcome with
  | error error => simp [Bind.bind, Except.bind]
  | ok value => simp [Bind.bind, Except.bind]

@[simp]
theorem ok_bind (value : β) (next : β → Outcome α γ) :
    (.ok value : Outcome α β) >>= next = next value :=
  rfl

@[simp]
theorem error_bind (error : Error α) (next : β → Outcome α γ) :
    (.error error : Outcome α β) >>= next = .error error :=
  rfl

theorem pure_eq_ok_iff {value result : β} :
    (pure value : Outcome α β) = .ok result ↔ value = result := by
  simp [Pure.pure, Except.pure]

@[simp]
theorem within_eq_ok_iff {note : Note α} {outcome : Outcome α β} {value : β} :
    within note outcome = .ok value ↔ outcome = .ok value := by
  cases outcome with
  | error error => simp
  | ok result => simp

/-! ### Success -/

theorem isOk_iff {outcome : Outcome α β} : outcome.isOk ↔ ∃ value, outcome = .ok value := by
  cases outcome with
  | error error => exact ⟨nofun, nofun⟩
  | ok value => exact ⟨fun _ => ⟨value, rfl⟩, fun _ => rfl⟩

theorem isOk_bind_iff {outcome : Outcome α β} {next : β → Outcome α γ} :
    (outcome >>= next).isOk ↔ ∃ value, outcome = .ok value ∧ (next value).isOk := by
  cases outcome with
  | error error => exact ⟨nofun, nofun⟩
  | ok value =>
      constructor
      · exact fun made => ⟨value, rfl, made⟩
      · rintro ⟨_, ⟨⟩, made⟩
        exact made

@[simp]
theorem isOk_within (note : Note α) (outcome : Outcome α β) :
    (within note outcome).isOk = outcome.isOk := by
  cases outcome with
  | error error => rfl
  | ok value => rfl

/-! ### Corresponding outcomes -/

variable {β' γ' : Type}

/-- Two sequences whose first outcomes and whose continuations correspond have corresponding
outcomes. -/
theorem bind_eq_map {outcome : Outcome α β} {outcome' : Outcome α β'} {f : β → β'}
    (same : outcome' = outcome.map f) {next : β → Outcome α γ} {next' : β' → Outcome α γ'}
    {g : γ → γ'} (each : ∀ value, next' (f value) = (next value).map g) :
    outcome' >>= next' = (outcome >>= next).map g := by
  subst same
  cases outcome with
  | error error => rfl
  | ok value => exact each value

/-- Two sequences with the same first outcome correspond when their continuations do. -/
theorem bind_eq_map_same {outcome : Outcome α β} {next : β → Outcome α γ}
    {next' : β → Outcome α γ'} {g : γ → γ'} (each : ∀ value, next' value = (next value).map g) :
    outcome >>= next' = (outcome >>= next).map g := by
  cases outcome with
  | error error => rfl
  | ok value => exact each value

theorem within_eq_map {note : Note α} {outcome : Outcome α β} {outcome' : Outcome α β'} {f : β → β'}
    (same : outcome' = outcome.map f) : within note outcome' = (within note outcome).map f := by
  subst same
  cases outcome with
  | error error => rfl
  | ok value => rfl

end Outcome

end EchoState
