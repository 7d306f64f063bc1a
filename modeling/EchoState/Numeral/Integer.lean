import EchoState.Numeral.Separator

/-!
# Integer numerals

Signed 64-bit integers in the bases two, eight, ten and sixteen. The marks `0b`, `0o` and `0x`
choose a base when a digit follows them, and a leading zero alone means base eight.
-/

namespace EchoState.Numeral

/-- The base of an unsigned numeral and the text of its digits. -/
def baseOf : List Char → Nat × List Char
  | '0' :: mark :: digit :: rest =>
      if mark.toLower = 'b' then (2, digit :: rest)
      else if mark.toLower = 'o' then (8, digit :: rest)
      else if mark.toLower = 'x' then (16, digit :: rest)
      else (8, mark :: digit :: rest)
  | '0' :: rest => (8, rest)
  | cs => (10, cs)

/-- The value of digits read from left to right; it leaves the 64-bit range as soon as it does. -/
def digitsFrom (base : Nat) : Nat → List Char → Except Fault Nat
  | value, [] => .ok value
  | value, c :: rest =>
      if c = '_' then digitsFrom base value rest
      else
        match digitValue? c with
        | none => .error .malformed
        | some digit =>
            if base ≤ digit then .error .malformed
            else if Nat.pow 2 64 ≤ value * base + digit then .error .outOfRange
            else digitsFrom base (value * base + digit) rest

def natural (cs : List Char) : Except Fault Nat := do
  if cs.isEmpty then .error .malformed
  else
    let (base, digits) := baseOf cs
    let value ← digitsFrom base 0 digits
    if cs.contains '_' && !wellSeparated cs then .error .malformed else .ok value

def integer (text : String) : Except Fault Int := do
  let cs := text.toList
  let value ← natural (withoutSign cs)
  if cs.head? = some '-' then
    if Nat.pow 2 63 < value then .error .outOfRange else .ok (-(value : Int))
  else if Nat.pow 2 63 ≤ value then .error .outOfRange
  else .ok value

end EchoState.Numeral
