import EchoState.Binary64.Nearest
import EchoState.Numeral.Separator

/-!
# Real numerals

Binary64 numbers in decimal or hexadecimal notation, rounded to nearest. A hexadecimal numeral has
a binary exponent, which it may not leave out. The words for infinity and for no number are read
in any case. A numeral too large for a finite value is out of range; one too small is zero.
-/

namespace EchoState.Numeral

/-- The digits of a numeral in front of its exponent: their value and how many follow the point. -/
structure Mantissa where
  value : Nat
  places : Nat
  nonempty : Bool
  pointSeen : Bool

/-- Reads digits, underscores and at most one point, and returns what follows them. -/
def readMantissa (hexadecimal : Bool) : Mantissa → List Char → Mantissa × List Char
  | m, [] => (m, [])
  | m, c :: rest =>
      if c = '_' then readMantissa hexadecimal m rest
      else if c = '.' && !m.pointSeen then
        readMantissa hexadecimal { m with pointSeen := true } rest
      else if isDigitIn hexadecimal c then
        readMantissa hexadecimal
          { m with
            value := m.value * (if hexadecimal then 16 else 10) + (digitValue? c).getD 0
            places := if m.pointSeen then m.places + 1 else m.places
            nonempty := true } rest
      else (m, c :: rest)

/-- Reads the digits and underscores of an exponent. Digits after a value of ten thousand change
nothing, because such an exponent is beyond every finite value. -/
def readExponent : Nat → List Char → Nat × List Char
  | value, [] => (value, [])
  | value, c :: rest =>
      if c = '_' then readExponent value rest
      else if c.isDigit then
        readExponent (if value < 10000 then value * 10 + (digitValue? c).getD 0 else value) rest
      else (value, c :: rest)

def readSignedExponent (cs : List Char) : Option (Int × List Char) :=
  match (withoutSign cs).head? with
  | some c =>
      if c.isDigit then
        let (value, rest) := readExponent 0 (withoutSign cs)
        some (if cs.head? = some '-' then -(value : Int) else value, rest)
      else none
  | none => none

/-- The exponent part of a numeral and what follows it: nothing, or the mark of the notation and a
signed exponent. A hexadecimal numeral must have one. -/
def exponentPart (hexadecimal : Bool) (cs : List Char) : Option (Int × List Char) :=
  let mark := if hexadecimal then 'p' else 'e'
  match cs with
  | [] => if hexadecimal then none else some (0, [])
  | c :: rest =>
      if c.toLower = mark then readSignedExponent rest
      else if hexadecimal then none
      else some (0, c :: rest)

/-- The value of `mantissa * 10 ^ exponent`, rounded once. -/
def scaleDecimal (mantissa : Nat) (exponent : Int) : Float :=
  Float.ofScientific mantissa (exponent < 0) exponent.natAbs

/-- Whether an unsigned numeral is hexadecimal, and the text of its digits. -/
def markOf : List Char → Bool × List Char
  | '0' :: mark :: digit :: rest =>
      if mark.toLower = 'x' then (true, digit :: rest) else (false, '0' :: mark :: digit :: rest)
  | cs => (false, cs)

/-- The value of an unsigned numeral with digits. -/
def magnitude? (cs : List Char) : Option Float :=
  let (hexadecimal, digits) := markOf cs
  let (m, rest) := readMantissa hexadecimal ⟨0, 0, false, false⟩ digits
  if m.nonempty then
    match exponentPart hexadecimal rest with
    | some (exponent, []) =>
        some (if hexadecimal then Binary64.Magnitude.toFloat ⟨m.value, exponent - 4 * m.places⟩
          else scaleDecimal m.value (exponent - m.places))
    | _ => none
  else none

def word? (text : String) : Option Float :=
  match text.toLower with
  | "nan" => some (0.0 / 0.0)
  | "inf" | "+inf" | "infinity" | "+infinity" => some (1.0 / 0.0)
  | "-inf" | "-infinity" => some (-1.0 / 0.0)
  | _ => none

def real (text : String) : Except Fault Float :=
  match word? text with
  | some value => .ok value
  | none =>
      let cs := text.toList
      match magnitude? (withoutSign cs) with
      | none => .error .malformed
      | some size =>
          if cs.contains '_' && !wellSeparated cs then .error .malformed
          else if size.isInf then .error .outOfRange
          else .ok (if cs.head? = some '-' then -size else size)

end EchoState.Numeral
