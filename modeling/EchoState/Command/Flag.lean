import EchoState.Numeral.Integer
import EchoState.Numeral.Real
import EchoState.Text.Quoted

/-!
# Flags

Arguments are read from left to right. A flag is a name after one or two dashes, with its value
after an equals sign or in the next argument; a toggle takes a value only after an equals sign.
Reading stops at the first argument that is no flag, or after two dashes alone. When a flag is
repeated its last value counts, but the two names of one flag must not be mixed. What the flags
change is left open, so that every command can have flags of its own.
-/

namespace EchoState.Command

/-- A flag by the kind of its value, with what the value changes. -/
inductive Flag (σ : Type) where
  | whole (change : Int → σ → σ)
  | real (change : Float → σ → σ)
  | word (change : String → σ → σ)
  | toggle (change : Bool → σ → σ)

structure FlagSet (σ : Type) where
  named? : String → Option (Flag σ)
  /-- The flags with two names, a long one and a short one. -/
  doubleNames : List (String × String)

inductive UsageError where
  | twoForms (long short : String)
  | badSyntax (argument : String)
  | undefinedFlag (name : String)
  | needsArgument (name : String)
  | badValue (value name : String) (fault : Numeral.Fault)
  | badToggle (value name : String)
  deriving DecidableEq, Repr

def UsageError.message : UsageError → String
  | .twoForms long short => "Cannot use two forms of the same flag: " ++ short ++ " " ++ long
  | .badSyntax argument => "bad flag syntax: " ++ argument
  | .undefinedFlag name => "flag provided but not defined: -" ++ name
  | .needsArgument name => "flag needs an argument: -" ++ name
  | .badValue value name fault =>
      "invalid value " ++ Text.quoted value ++ " for flag -" ++ name ++ ": " ++ fault.text
  | .badToggle value name =>
      "invalid boolean value " ++ Text.quoted value ++ " for -" ++ name ++ ": parse error"

inductive Argument where
  | operand
  /-- Two dashes alone, so that reading stops after it. -/
  | terminator
  | malformed
  | flag (name : String) (value : Option String)
  deriving DecidableEq, Repr

/-- A flag from the text after its dashes, divided at the first equals sign. -/
def Argument.ofName : List Char → Argument
  | [] => .malformed
  | c :: rest =>
      if c = '-' ∨ c = '=' then .malformed
      else
        let name := String.ofList (c :: rest.takeWhile (· ≠ '='))
        match rest.dropWhile (· ≠ '=') with
        | [] => .flag name none
        | _ :: value => .flag name (some (String.ofList value))

def Argument.ofString (argument : String) : Argument :=
  match argument.toList with
  | ['-', '-'] => .terminator
  | '-' :: '-' :: name => .ofName name
  | '-' :: c :: name => .ofName (c :: name)
  | _ => .operand

def truth? : String → Option Bool
  | "1" | "t" | "T" | "TRUE" | "true" | "True" => some true
  | "0" | "f" | "F" | "FALSE" | "false" | "False" => some false
  | _ => none

structure Reading (σ : Type) where
  target : σ
  names : List String
  operands : List String

namespace Reading

variable {σ : Type}

def record (r : Reading σ) (name : String) (target : σ) : Reading σ :=
  { r with target, names := name :: r.names }

def assign (r : Reading σ) (name : String) (flag : Flag σ) (value : String) :
    Except UsageError (Reading σ) :=
  match flag with
  | .whole change =>
      match Numeral.integer value with
      | .ok v => .ok (r.record name (change v r.target))
      | .error fault => .error (.badValue value name fault)
  | .real change =>
      match Numeral.real value with
      | .ok v => .ok (r.record name (change v r.target))
      | .error fault => .error (.badValue value name fault)
  | .word change => .ok (r.record name (change value r.target))
  | .toggle change =>
      match truth? value with
      | some v => .ok (r.record name (change v r.target))
      | none => .error (.badToggle value name)

/-- Reads arguments, the first of which may be the value of a flag still waiting for it. The error
that ends the reading comes with what was read before it. -/
def scan (flags : FlagSet σ) :
    Option (String × Flag σ) → Reading σ → List String → Option UsageError × Reading σ
  | some (name, _), r, [] => (some (.needsArgument name), r)
  | some (name, flag), r, value :: rest =>
      match r.assign name flag value with
      | .ok next => scan flags none next rest
      | .error error => (some error, r)
  | none, r, [] => (none, r)
  | none, r, argument :: rest =>
      match Argument.ofString argument with
      | .operand => (none, { r with operands := argument :: rest })
      | .terminator => (none, { r with operands := rest })
      | .malformed => (some (.badSyntax argument), r)
      | .flag name value =>
          match flags.named? name, value with
          | none, _ => (some (.undefinedFlag name), r)
          | some (.toggle change), none =>
              scan flags none (r.record name (change true r.target)) rest
          | some flag, none => scan flags (some (name, flag)) r rest
          | some flag, some text =>
              match r.assign name flag text with
              | .ok next => scan flags none next rest
              | .error error => (some error, r)

def mixed? (flags : FlagSet σ) (r : Reading σ) : Option UsageError :=
  (flags.doubleNames.find? fun (long, short) =>
    r.names.contains long && r.names.contains short).map fun (long, short) => .twoForms long short

end Reading

/-- Reads arguments and sets their flags. Mixed names are reported before any other error. -/
def FlagSet.read {σ : Type} (flags : FlagSet σ) (start : σ) (arguments : List String) :
    Except UsageError (Reading σ) :=
  let (error, reading) := Reading.scan flags none ⟨start, [], []⟩ arguments
  match reading.mixed? flags, error with
  | some mixed, _ => .error mixed
  | none, some error => .error error
  | none, none => .ok reading

end EchoState.Command
