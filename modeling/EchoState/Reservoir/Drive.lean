import EchoState.Error

/-!
# Input drives

Sequences of input samples. The quiet drive is all zeros. The high-low drive visits every
combination of a high and a low level on its channels: each combination is held equally long, in
increasing order, and the samples that are left over run through the combinations once more, one
sample each.
-/

namespace EchoState.Drive

variable {α : Type}

def extent (task : Task) (channels samples : Int) : Outcome α (Nat × Nat) :=
  if channels < 0 ∨ samples < 0 then
    .error ⟨[.task task, .extent channels samples], .negativeDimension⟩
  else .ok (channels.toNat, samples.toNat)

/-- The number of combinations of high and low on some channels. From sixty-two channels on it
stays the same, because no drive is long enough to reach a later combination. -/
def combinations (channels : Nat) : Nat :=
  Nat.pow 2 (min channels 62)

def hold (count samples : Nat) : Nat :=
  samples / count

/-- The combination whose turn it is at a sample when so many combinations take turns. -/
def inTurn (count samples t : Nat) : Nat :=
  let held := hold count samples * count
  if t < held then t / hold count samples else (t - held) % count

def combination (channels samples t : Nat) : Nat :=
  inTurn (combinations channels) samples t

variable [Scalar α]

/-- The sample that shows a combination: channel `c` is high exactly when bit `c` is set. -/
def sample (channels : Nat) (level : α) (shown : Nat) : Array α :=
  Array.ofFn fun c : Fin channels => if shown.testBit c then level else -level

def quiet (channels samples : Nat) : List (Array α) :=
  (List.range samples).map fun _ => Array.replicate channels 0

def zeros (channels samples : Int) : Outcome α (List (Array α)) := do
  let (width, length) ← extent .zeros channels samples
  return quiet width length

/-- Samples that visit every combination of the level and its negative. -/
def highLow (channels samples : Int) (level : α) : Outcome α (List (Array α)) := do
  let (width, length) ← extent .highLow channels samples
  if Scalar.finite level then
    return (List.range length).map fun t => sample width level (combination width length t)
  else .error ⟨[.task .highLow, .level level], .notFinite⟩

end EchoState.Drive
