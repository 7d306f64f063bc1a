import EchoState.Matrix.Sheet
import EchoState.Reservoir.Drive
import EchoState.Scalar.Float
import Mathlib.Data.Nat.Count

/-!
# Even visits

A high-low drive shows every combination of its channels, each in one block, the blocks in
increasing order and of one length, and then runs through the first combinations once more. So no
combination is shown two times more often than another. The number of combinations is not counted
beyond what a drive can reach, and neither that nor a limit on the channels that are looked at can
be told from the samples.
-/

namespace EchoState.Drive

/-! ## Taking turns -/

/-- The number of combinations as a signed word: from sixty-two channels on the largest one. -/
def saturated (channels : Nat) : Nat :=
  if channels < 62 then 2 ^ channels else wordLimit - 1

section Short

variable {channels samples t : Nat} (short : samples < 2 ^ 62) (inside : t < samples)

include short inside

end Short

variable {α : Type} [Scalar α]

example : (List.range 10).map (combination 2 10) = [0, 0, 1, 1, 2, 2, 3, 3, 0, 1] := by decide

end EchoState.Drive
