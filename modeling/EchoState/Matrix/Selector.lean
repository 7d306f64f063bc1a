import EchoState.Matrix.Basic

/-!
# Selectors

The selector with the given dimensions keeps the leading entries of a vector: its rows are the
rows of the identity matrix, cut off or followed by rows of zeros.
-/

namespace EchoState.Matrix

variable {α : Type} [Scalar α]

/-- The selector of the leading `rows` of `cols` entries. -/
def selector (rows cols : Int) : Outcome α (Matrix α) := do
  let unit ← identity cols
  let leading ← (List.range (min rows.toNat unit.rows)).mapM fun i : Nat =>
    (unit.row i).map Vector.toList
  let below := List.replicate ((rows.toNat - unit.rows) * unit.cols) 0
  ofValues rows cols (leading.flatten ++ below).toArray

end EchoState.Matrix
