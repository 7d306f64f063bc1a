import EchoState.Reservoir.Settings

/-!
# Requests

What a caller of the command line asks for: which reservoir to build, how to settle it, and whether
to simulate it afterwards.
-/

namespace EchoState.Command

/-- Everything that the flags of the command line decide. -/
structure Request (α : Type) where
  inputs : Int
  outputs : Int
  latents : Int
  /-- The step budget of settling; none when it is not positive. -/
  maxSteps : Int
  settings : Settings α
  random : Bool
  seed : Int
  /-- The number of samples to simulate; no simulation when it is not positive. -/
  simulate : Int
  drive : String
  level : α
  compare : Bool
  probe : Bool
  /-- Print every part of the reservoir before and after settling. -/
  dump : Bool
  profile : String
  help : Bool
  version : Bool

def Request.standard {α : Type} [Scalar α] : Request α where
  inputs := 5
  outputs := 3
  latents := 4
  maxSteps := 0
  settings := Settings.standard
  random := false
  seed := 1
  simulate := 0
  drive := "zeros"
  level := Scalar.ratio 1 10
  compare := false
  probe := false
  dump := false
  profile := ""
  help := false
  version := false

end EchoState.Command
