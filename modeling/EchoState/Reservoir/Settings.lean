import EchoState.Scalar

/-!
# Settings

Three positive numbers govern a reservoir: the tolerance below which a step counts as settled, the
time that one integration step covers, and the rate of the continuous dynamics. Settings are given
as a list in which the last word on each number wins; a number that is not positive and finite is
refused before anything is built.
-/

namespace EchoState

/-- The numbers that govern a reservoir. -/
structure Settings (α : Type) where
  /-- The largest change of state in a settled step. -/
  tolerance : α
  timescale : α
  gamma : α

inductive Knob where
  | tolerance
  | timescale
  | gamma
  deriving DecidableEq, Repr

structure Setting (α : Type) where
  knob : Knob
  value : α

def Knob.complaint : Knob → String
  | .tolerance => "reservoir: WithTolerance: tolerance must be finite and > 0"
  | .timescale => "reservoir: WithGlobalTimescale: timescale must be finite and > 0"
  | .gamma => "reservoir: WithGamma: gamma must be finite and > 0"

namespace Settings

variable {α : Type}

def change (settings : Settings α) (setting : Setting α) : Settings α :=
  match setting.knob with
  | .tolerance => { settings with tolerance := setting.value }
  | .timescale => { settings with timescale := setting.value }
  | .gamma => { settings with gamma := setting.value }

variable [Scalar α]

/-- A tolerance of 10^-5, steps of a thousandth and a rate of one hundred. -/
def standard : Settings α where
  tolerance := Scalar.ratio 1 100000
  timescale := Scalar.ratio 1 1000
  gamma := Scalar.natural 100

/-- The standard settings changed by a list of numbers in order, or the first number refused. -/
def resolve (list : List (Setting α)) : Except Knob (Settings α) :=
  match list.find? fun setting => !Scalar.positiveFinite setting.value with
  | some bad => .error bad.knob
  | none => .ok (list.foldl change standard)

end Settings

end EchoState
