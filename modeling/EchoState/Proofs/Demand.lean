import EchoState.Proofs.Control

/-!
# Demands in order

What a sequence of checks asks for, apart from how it asks. A demand is a condition together with
the causes that may be reported when it does not hold. An outcome is decided by a list of demands
when it is a success under all of them, and otherwise reports the first that does not hold; checks
in sequence are decided by their demands in sequence.
-/

namespace EchoState

/-- A condition, and the causes that may be reported when it does not hold. -/
structure Demand where
  met : Prop
  reports : Cause → Prop

namespace Demand

/-- A condition whose failure has one cause. -/
def orElse (met : Prop) (cause : Cause) : Demand :=
  ⟨met, fun reported => reported = cause⟩

end Demand

/-- The demand does not hold, and every demand before it in the list does. -/
inductive FirstUnmet (demand : Demand) : List Demand → Prop where
  | here {rest : List Demand} (unmet : ¬demand.met) : FirstUnmet demand (demand :: rest)
  | later {earlier : Demand} {rest : List Demand} (met : earlier.met)
      (onward : FirstUnmet demand rest) : FirstUnmet demand (earlier :: rest)

namespace FirstUnmet

variable {demand : Demand} {demands : List Demand}

theorem mem (first : FirstUnmet demand demands) : demand ∈ demands := by
  induction first with
  | here unmet => exact List.mem_cons_self
  | later met onward ih => exact List.mem_cons_of_mem _ ih

theorem unmet (first : FirstUnmet demand demands) : ¬demand.met := by
  induction first with
  | here unmet => exact unmet
  | later met onward ih => exact ih

theorem append_right (first : FirstUnmet demand demands) (rest : List Demand) :
    FirstUnmet demand (demands ++ rest) := by
  induction first with
  | here unmet => exact .here unmet
  | later met onward ih => exact .later met ih

theorem append_left {before : List Demand} (met : ∀ earlier ∈ before, earlier.met)
    (first : FirstUnmet demand demands) : FirstUnmet demand (before ++ demands) := by
  induction before with
  | nil => exact first
  | cons earlier rest ih =>
      rw [List.forall_mem_cons] at met
      exact .later met.1 (ih met.2)

end FirstUnmet

namespace Outcome

variable {α β γ : Type} {demands : List Demand}

/-- The outcome is a success and every demand holds, or it reports the first one that does not. -/
inductive DecidedBy (demands : List Demand) : Outcome α β → Prop where
  | success {value : β} (met : ∀ demand ∈ demands, demand.met) : DecidedBy demands (.ok value)
  | failure {error : Error α} {demand : Demand} (first : FirstUnmet demand demands)
      (reported : demand.reports error.cause) : DecidedBy demands (.error error)

namespace DecidedBy

/-- An outcome that reports a cause of the first demand, which does not hold. -/
theorem refused {error : Error α} {demand : Demand} (unmet : ¬demand.met)
    (reported : demand.reports error.cause) :
    DecidedBy (demand :: demands) (.error error : Outcome α β) :=
  .failure (.here unmet) reported

/-- A single demand decides between success and its cause. -/
theorem of_or {outcome : Outcome α β} {met : Prop} {cause : Cause}
    (either : met ∧ (∃ value, outcome = .ok value) ∨
      ¬met ∧ ∃ error : Error α, outcome = .error error ∧ error.cause = cause) :
    DecidedBy [.orElse met cause] outcome := by
  rcases either with ⟨holds, value, rfl⟩ | ⟨fails, error, rfl, reported⟩
  · exact .success (List.forall_mem_singleton.mpr holds)
  · exact .refused fails reported

variable {outcome : Outcome α β}

theorem exists_ok_iff (decided : DecidedBy demands outcome) :
    (∃ value, outcome = .ok value) ↔ ∀ demand ∈ demands, demand.met := by
  cases decided with
  | success met => exact ⟨fun _ => met, fun _ => ⟨_, rfl⟩⟩
  | failure first reported =>
      exact ⟨nofun, fun met => absurd (met _ first.mem) first.unmet⟩

theorem exists_first_of_error (decided : DecidedBy demands outcome) {error : Error α}
    (failed : outcome = .error error) :
    ∃ demand, FirstUnmet demand demands ∧ demand.reports error.cause := by
  cases decided with
  | success met => cases failed
  | failure first reported =>
      cases failed
      exact ⟨_, first, reported⟩

theorem within (note : Note α) (decided : DecidedBy demands outcome) :
    DecidedBy demands (Outcome.within note outcome) := by
  cases decided with
  | success met => exact .success met
  | failure first reported => exact .failure first reported

theorem bind {rest : List Demand} {next : β → Outcome α γ} (decided : DecidedBy demands outcome)
    (onward : ∀ value, outcome = .ok value → DecidedBy rest (next value)) :
    DecidedBy (demands ++ rest) (outcome >>= next) := by
  cases decided with
  | failure first reported => exact .failure (first.append_right rest) reported
  | @success value met =>
      have later : DecidedBy rest (next value) := onward value rfl
      show DecidedBy (demands ++ rest) (next value)
      generalize next value = outcome at later ⊢
      cases later with
      | success metLater =>
          refine .success fun demand listed => ?_
          exact (List.mem_append.mp listed).elim (met demand) (metLater demand)
      | failure first reported => exact .failure (first.append_left met) reported

theorem bind_pure {f : β → γ} (decided : DecidedBy demands outcome) :
    DecidedBy demands (outcome >>= fun value => return f value) := by
  have onward (value : β) : DecidedBy [] (return f value : Outcome α γ) := .success nofun
  have chained := decided.bind fun value _ => onward value
  rwa [List.append_nil] at chained

theorem cons_iff {demand : Demand} (holds : demand.met) :
    DecidedBy (demand :: demands) outcome ↔ DecidedBy demands outcome := by
  constructor
  · intro decided
    cases decided with
    | success met => exact .success (List.forall_mem_cons.mp met).2
    | failure first reported =>
        cases first with
        | here unmet => exact absurd holds unmet
        | later met onward => exact .failure onward reported
  · intro decided
    cases decided with
    | success met => exact .success (List.forall_mem_cons.mpr ⟨holds, met⟩)
    | failure first reported => exact .failure (.later holds first) reported

end DecidedBy

end Outcome

end EchoState
