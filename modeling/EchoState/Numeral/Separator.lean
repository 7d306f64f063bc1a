/-!
# Digit separators

Numerals may carry underscores between digits. A base mark such as `0x` counts as a digit, so an
underscore may follow it. Misplaced underscores make a numeral malformed.
-/

namespace EchoState.Numeral

/-- Why a text is not accepted as a number. -/
inductive Fault where
  | malformed
  | outOfRange
  deriving DecidableEq, Repr

def Fault.text : Fault → String
  | .malformed => "parse error"
  | .outOfRange => "value out of range"

/-- The value of a decimal digit or of a letter counted on from ten. -/
def digitValue? (c : Char) : Option Nat :=
  if c.isDigit then some (c.toNat - '0'.toNat)
  else if c.isLower then some (c.toNat - 'a'.toNat + 10)
  else if c.isUpper then some (c.toNat - 'A'.toNat + 10)
  else none

def isDigitIn (hexadecimal : Bool) (c : Char) : Bool :=
  c.isDigit || (hexadecimal && c.isAlpha && c.toLower ≤ 'f')

inductive Mark where
  | nothing
  | digit
  | underscore
  | other
  deriving DecidableEq, Repr

def separated (hexadecimal : Bool) : Mark → List Char → Bool
  | mark, [] => mark != .underscore
  | mark, c :: rest =>
      if isDigitIn hexadecimal c then separated hexadecimal .digit rest
      else if c = '_' then mark = .digit && separated hexadecimal .underscore rest
      else mark != .underscore && separated hexadecimal .other rest

def withoutSign : List Char → List Char
  | '+' :: rest => rest
  | '-' :: rest => rest
  | cs => cs

/-- The underscores of a numeral stand between digits, the base mark counting as one. -/
def wellSeparated (cs : List Char) : Bool :=
  match withoutSign cs with
  | '0' :: mark :: rest =>
      if mark.toLower = 'x' then separated true .digit rest
      else if mark.toLower = 'b' ∨ mark.toLower = 'o' then separated false .digit rest
      else separated false .nothing ('0' :: mark :: rest)
  | other => separated false .nothing other

end EchoState.Numeral
