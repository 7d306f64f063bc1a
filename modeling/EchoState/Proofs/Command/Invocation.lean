import EchoState.Command.Invocation

/-!
# Command lines that ask for a run

A command line asks for a run exactly when its flags are read without an error, none of them asks
for help or for the version, and what is left after them does not begin with the help command. The
request is then what the flags have made of the standard one.
-/

namespace EchoState.Command

/-- A reading of the flags of a request that asks for neither help nor the version. -/
structure Reading.AsksForRun (reading : Reading (Request Float)) : Prop where
  help_eq : reading.target.help = false
  version_eq : reading.target.version = false
  no_command : ∀ first ∈ reading.operands.head?, first ∉ helpNames

namespace Invocation

theorem ofHelpArguments_ne_run (arguments : List String) (request : Request Float) :
    ofHelpArguments arguments ≠ .ok (.run request) := by
  intro same
  unfold ofHelpArguments at same
  cases read : helpFlags.read false (flagsFirst arguments) with
  | error error =>
      rw [read] at same
      cases same
  | ok reading =>
      obtain ⟨asked, names, operands⟩ := reading
      rw [read] at same
      cases asked with
      | true => cases same
      | false =>
          cases operands with
          | nil => cases same
          | cons topic rest =>
              by_cases known : topic = "" ∨ topic ∈ helpNames
              · cases (if_pos known).symm.trans same
              · cases (if_neg known).symm.trans same

theorem ofReading_eq_run_iff {reading : Reading (Request Float)} {request : Request Float} :
    ofReading reading = .ok (.run request) ↔ reading.AsksForRun ∧ reading.target = request := by
  obtain ⟨target, names, operands⟩ := reading
  unfold ofReading
  constructor
  · intro same
    by_cases help : target.help = true
    · cases (if_pos help).symm.trans same
    replace same := (if_neg help).symm.trans same
    by_cases version : target.version = true
    · cases (if_pos version).symm.trans same
    replace same := (if_neg version).symm.trans same
    rw [Bool.not_eq_true] at help version
    cases operands with
    | nil =>
        cases same
        exact ⟨⟨help, version, nofun⟩, rfl⟩
    | cons first rest =>
        by_cases command : first ∈ helpNames
        · exact absurd ((if_pos command).symm.trans same) (ofHelpArguments_ne_run rest request)
        · cases (if_neg command).symm.trans same
          refine ⟨⟨help, version, ?_⟩, rfl⟩
          rintro _ ⟨⟩
          exact command
  · rintro ⟨⟨help, version, noCommand⟩, rfl⟩
    rw [if_neg (Bool.eq_false_iff.mp help), if_neg (Bool.eq_false_iff.mp version)]
    cases operands with
    | nil => rfl
    | cons first rest => exact if_neg (noCommand first rfl)

/-- Which command lines ask for a run, and for which one. -/
theorem ofArguments_eq_run_iff {arguments : List String} {request : Request Float} :
    ofArguments arguments = .ok (.run request) ↔
      ∃ reading, Request.flags.read .standard arguments = .ok reading ∧ reading.AsksForRun ∧
        reading.target = request := by
  unfold ofArguments
  generalize Request.flags.read .standard arguments = outcome
  constructor
  · intro same
    cases outcome with
    | error error => cases same
    | ok reading => exact ⟨reading, rfl, ofReading_eq_run_iff.mp same⟩
  · rintro ⟨reading, rfl, asks⟩
    exact ofReading_eq_run_iff.mpr asks

end Invocation

end EchoState.Command
