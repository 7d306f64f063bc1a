import EchoState.Text.Printable

/-!
# Quoted text

Text in double quotes in which every character is visible: quotes and backslashes are escaped,
common control characters have one-letter escapes, and what is not printable is written by its
code point in hexadecimal digits.
-/

namespace EchoState.Text

/-- A number in hexadecimal digits, at least so many of them. -/
def hexadecimal (width : Nat) (n : Nat) : String :=
  let digits := String.ofList (Nat.toDigits 16 n)
  "".pushn '0' (width - digits.length) ++ digits

def escapeLetter? (c : Char) : Option Char :=
  match c.toNat with
  | 0x07 => some 'a'
  | 0x08 => some 'b'
  | 0x0c => some 'f'
  | 0x0a => some 'n'
  | 0x0d => some 'r'
  | 0x09 => some 't'
  | 0x0b => some 'v'
  | _ => none

def quotedChar (c : Char) : String :=
  if c = '"' ∨ c = '\\' then "\\" ++ c.toString
  else if isPrintable c then c.toString
  else
    match escapeLetter? c with
    | some letter => "\\" ++ letter.toString
    | none =>
        if c.toNat < 0x20 ∨ c.toNat = 0x7f then "\\x" ++ hexadecimal 2 c.toNat
        else if c.toNat < 0x10000 then "\\u" ++ hexadecimal 4 c.toNat
        else "\\U" ++ hexadecimal 8 c.toNat

def quoted (text : String) : String :=
  "\"" ++ String.join (text.toList.map quotedChar) ++ "\""

end EchoState.Text
