import EchoState.Command.Flag
import EchoState.Command.Request
import EchoState.Scalar.Float

/-!
# Invocations

What a command line asks for: help, the version, or a run. The flags of a request come first; the
first argument after them may be the help command, which takes a topic and has flags of its own.
-/

namespace EchoState.Command

def Request.flag? : String → Option (Flag (Request Float))
  | "input" | "k" => some (.whole fun v r => { r with inputs := v })
  | "output" | "m" => some (.whole fun v r => { r with outputs := v })
  | "latent" | "n" => some (.whole fun v r => { r with latents := v })
  | "max-steps" => some (.whole fun v r => { r with maxSteps := v })
  | "tolerance" => some (.real fun v r => { r with settings := { r.settings with tolerance := v } })
  | "timescale" => some (.real fun v r => { r with settings := { r.settings with timescale := v } })
  | "gamma" => some (.real fun v r => { r with settings := { r.settings with gamma := v } })
  | "random" => some (.toggle fun v r => { r with random := v })
  | "seed" => some (.whole fun v r => { r with seed := v })
  | "simulate" => some (.whole fun v r => { r with simulate := v })
  | "drive" => some (.word fun v r => { r with drive := v })
  | "level" => some (.real fun v r => { r with level := v })
  | "compare" => some (.toggle fun v r => { r with compare := v })
  | "probe" => some (.toggle fun v r => { r with probe := v })
  | "dump" => some (.toggle fun v r => { r with dump := v })
  | "profile" => some (.word fun v r => { r with profile := v })
  | "help" | "h" => some (.toggle fun v r => { r with help := v })
  | "version" | "v" => some (.toggle fun v r => { r with version := v })
  | _ => none

def Request.flags : FlagSet (Request Float) where
  named? := Request.flag?
  doubleNames :=
    [("input", "k"), ("output", "m"), ("latent", "n"), ("help", "h"), ("version", "v")]

def helpNames : List String :=
  ["help", "h"]

/-- The flags of the help command, which can only ask for help on itself. -/
def helpFlags : FlagSet Bool where
  named? name := if helpNames.contains name then some (.toggle fun asked _ => asked) else none
  doubleNames := [("help", "h")]

def startsFlag (argument : String) : Bool :=
  match argument.toList with
  | '-' :: _ :: _ => true
  | _ => false

/-- The arguments of the help command in the order in which they are read: from the first flag on,
and then those before it. What two dashes alone set apart stays last. -/
def flagsFirst (arguments : List String) : List String :=
  let (free, closed) := arguments.span (· ≠ "--")
  let (topics, flagged) := free.span fun argument => !startsFlag argument
  flagged ++ topics ++ closed

inductive Invocation where
  | help
  | unknownTopic (topic : String)
  | version
  | run (request : Request Float)

namespace Invocation

def ofHelpArguments (arguments : List String) : Except UsageError Invocation := do
  let reading ← helpFlags.read false (flagsFirst arguments)
  match reading.target, reading.operands with
  | true, _ | false, [] => return .help
  | false, topic :: _ =>
      if topic = "" ∨ topic ∈ helpNames then return .help else return .unknownTopic topic

/-- What flags and the arguments after them ask for. A call for help is answered before one for the
version, and both of them before the help command. -/
def ofReading (reading : Reading (Request Float)) : Except UsageError Invocation :=
  if reading.target.help then return .help
  else if reading.target.version then return .version
  else
    match reading.operands with
    | [] => return .run reading.target
    | first :: rest =>
        if first ∈ helpNames then ofHelpArguments rest else return .run reading.target

def ofArguments (arguments : List String) : Except UsageError Invocation := do
  ofReading (← Request.flags.read .standard arguments)

end Invocation

def unknownTopicCode : Nat := 3

def unknownTopicText (topic : String) : String :=
  "No help topic for '" ++ topic ++ "'\n"

end EchoState.Command
