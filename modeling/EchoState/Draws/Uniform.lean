import EchoState.Draws.Seasoning

/-!
# Uniform draws

A seeded additive generator: every word is the sum of the words 607 and 273 places before it. The
register is filled by a multiplicative congruential sequence of the seed and mixed with fixed
seasoning words. A draw is the low 63 bits of a word as a fraction of 2^63, rounded to binary64; a
word that rounds up to one is passed over, so draws lie below one.
-/

namespace EchoState.Draws

def longLag : Nat := 607

/-- The distance of the nearer of the two words that are added. -/
def shortLag : Nat := 273

/-- The modulus of the sequence that fills the register. -/
def modulus : Nat := Nat.pow 2 31 - 1

def scramble (x : Nat) : Nat :=
  48271 * x % modulus

/-- The start of that sequence: the seed reduced by the modulus, where zero is replaced. -/
def start (seed : Int) : Nat :=
  let reduced := (seed % modulus).toNat
  if reduced = 0 then 89482311 else reduced

/-- Steps that are thrown away before the register is filled. -/
def warmUp : Nat → Nat → Nat
  | 0, x => x
  | count + 1, x => warmUp count (scramble x)

/-- The words of the register in filling order, each from three steps of the sequence. -/
def fill : Nat → Nat → List UInt64
  | 0, _ => []
  | count + 1, x =>
      let high := scramble x
      let middle := scramble high
      let low := scramble middle
      let word := (UInt64.ofNat high <<< 40) ^^^ (UInt64.ofNat middle <<< 20) ^^^ UInt64.ofNat low
      word :: fill count low

/-- The register of a seed, oldest word first. The register is filled from the far end of its
short lag backwards. -/
def register (seed : Int) : Array UInt64 :=
  let words := (fill longLag (warmUp 20 (start seed))).toArray
  let seasoned := Array.zipWith (· ^^^ ·) words seasoning
  Array.ofFn fun i : Fin longLag =>
    seasoned.getD ((2 * longLag - shortLag - 1 - i) % longLag) 0

def nextWord (history : Array UInt64) : UInt64 :=
  history.getD (history.size - longLag) 0 + history.getD (history.size - shortLag) 0

/-- The low 63 bits of a word as a fraction of 2^63. -/
def fraction (word : UInt64) : Float :=
  Float.ofNat (word.toNat % Nat.pow 2 63) / Float.ofNat (Nat.pow 2 63)

/-- The next draw after a history, passing over at most the given number of words. -/
def draw : Nat → Array UInt64 → Float × Array UInt64
  | 0, history => (0, history)
  | tries + 1, history =>
      let word := nextWord history
      let value := fraction word
      if value == 1 then draw tries (history.push word) else (value, history.push word)

def drawMany : (count : Nat) → Array UInt64 → Vector Float count × Array UInt64
  | 0, history => (#v[], history)
  | count + 1, history =>
      let (earlier, history) := drawMany count history
      let (value, history) := draw longLag history
      (earlier.push value, history)

def uniforms (seed : Int) (count : Nat) : Vector Float count :=
  (drawMany count (register seed)).1

end EchoState.Draws
