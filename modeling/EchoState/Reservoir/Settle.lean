import EchoState.Reservoir.Basic

/-!
# Settling

Steps are repeated until the reservoir has converged. Before each step the caller may interrupt
and a step budget may run out; after each step a change that is no number ends the attempt. The
loop is stated once for any machine that can step, and takes a bound on its own length: an attempt
that outlasts the bound has no outcome.
-/

namespace EchoState

/-- The answers to being asked, before each step, whether to stop: any error of the caller's, or
none. -/
abbrev Signals (α : Type := Float) : Type :=
  Nat → Option (Error α)

namespace Signals

variable {α : Type}

def never : Signals α :=
  fun _ => none

def always (reason : Interruption) : Signals α :=
  fun _ => some (.of (.interrupted reason))

/-- Stop after being asked so many times. -/
def after (checks : Nat) (reason : Interruption) : Signals α :=
  fun asked => if asked < checks then none else some (.of (.interrupted reason))

end Signals

/-- The end of an attempt to settle: the steps it took and what prevented success. -/
structure Settled (α : Type) where
  taken : Nat
  failure : Option (Error α)

/-- Repeats the step of a machine from the given count on. -/
def settleLoop {α σ : Type} [Scalar α] (converged : σ → Bool) (step : σ → α × σ)
    (signals : Signals α) (maxSteps : Int) : Nat → Nat → σ → Option (Settled α) × σ
  | 0, _, machine => (none, machine)
  | bound + 1, taken, machine =>
      if converged machine then (some ⟨taken, none⟩, machine)
      else
        match signals taken with
        | some error => (some ⟨taken, some (error.within (.task .settle))⟩, machine)
        | none =>
            if 0 < maxSteps ∧ maxSteps ≤ taken then
              (some ⟨taken, some ⟨[.task .settle], .notConverged⟩⟩, machine)
            else
              let (delta, next) := step machine
              if Scalar.isNaN delta then
                (some ⟨taken + 1, some ⟨[.task .settle], .notFinite⟩⟩, next)
              else settleLoop converged step signals maxSteps bound (taken + 1) next

/-- Repeats discrete steps until the reservoir has converged. A budget that is not positive is no
budget. -/
def Reservoir.settle {α : Type} [Scalar α] [Distances α] {d : Dims} (r : Reservoir α d)
    (bound : Nat) (signals : Signals α) (maxSteps : Int) : Option (Settled α) × Reservoir α d :=
  settleLoop Reservoir.converged Reservoir.advance signals maxSteps bound 0 r

end EchoState
