import EchoState.Matrix.Grid
import EchoState.Warping.Plan

/-!
# The whole table

The alignment table with one border row above and one border column to the left: zero in the
corner, infinite along the borders. Row by row and from left to right every other cell is computed
from its three neighbours. The path is found by walking back from the last cell to the first. The
walk reads the buffer of the table at positions that nobody checks: only the values in the table
keep it inside.
-/

namespace EchoState.Warping

variable {α : Type} [Scalar α] {n m : Nat}

namespace Table

/-- The table before any cell is computed: the corner is zero and everything else infinite. -/
def border : Grid α (n + 1) (m + 1) :=
  Grid.ofFn fun i j => if i.val = 0 ∧ j.val = 0 then 0 else Scalar.inf

def fillRow (rule : Rule α) (cost : Fin n → Fin m → α) (i : Fin n)
    (table : Grid α (n + 1) (m + 1)) : Grid α (n + 1) (m + 1) :=
  m.fold (fun position inside t =>
    let j : Fin m := ⟨position, inside⟩
    t.set i.succ j.succ
      (rule.cell cost i j (t.get i.castSucc j.castSucc) (t.get i.castSucc j.succ)
        (t.get i.succ j.castSucc))) table

def fill (rule : Rule α) (cost : Fin n → Fin m → α) : Grid α (n + 1) (m + 1) :=
  n.fold (fun i inside table => fillRow rule cost ⟨i, inside⟩ table) border

def distance (table : Grid α (n + 1) (m + 1)) : α :=
  table.get (Fin.last n) (Fin.last m)

/-- The value at the position that a row and a column have in the buffer of a table. Beside the
table that may be a cell of another row; outside the buffer there is none. -/
def at? (table : Grid α (n + 1) (m + 1)) (i j : Int) : Option α :=
  if i * (m + 1) + j < 0 then none else table.cells[(i * (m + 1) + j).toNat]?

/-- The cell to which the walk back turns from a cell: ties go to the diagonal and then upwards. -/
def turn? (penalty : α) (table : Grid α (n + 1) (m + 1)) (i j : Int) : Option (Int × Int) := do
  let diagonal ← at? table (i - 1) (j - 1)
  let above ← at? table (i - 1) j
  let left ← at? table i (j - 1)
  if Scalar.le diagonal (above + penalty) && Scalar.le diagonal (left + penalty) then
    return (i - 1, j - 1)
  else if Scalar.le (above + penalty) (left + penalty) then
    return (i - 1, j)
  else return (i, j - 1)

/-- A turn leads to an earlier position of the buffer and never to the right. -/
theorem earlier_of_turn {penalty : α} {table : Grid α (n + 1) (m + 1)} {i j k l : Int}
    (turned : turn? penalty table i j = some (k, l)) :
    0 ≤ k * (m + 1) + l ∧ k * (m + 1) + l < i * (m + 1) + j ∧ l ≤ j := by
  unfold turn? at turned
  simp only [Option.bind_eq_bind, Option.bind_eq_some_iff] at turned
  obtain ⟨diagonal, found, above, _, left, _, chosen⟩ := turned
  have diagonalInside : 0 ≤ (i - 1) * (m + 1) + (j - 1) := by
    unfold at? at found
    split at found
    · cases found
    · omega
  have row : (i - 1) * (m + 1) = i * (m + 1) - (m + 1) := by rw [Int.sub_mul, Int.one_mul]
  split at chosen
  · cases chosen
    omega
  · split at chosen
    · cases chosen
      omega
    · cases chosen
      omega

/-- Walks back from a cell to the first one and puts the cells in front of the given path. A walk
that leaves the buffer has no path. -/
def walkBack (penalty : α) (table : Grid α (n + 1) (m + 1)) (i j : Int)
    (path : List (Nat × Nat)) : Option (List (Nat × Nat)) :=
  let walked := ((i - 1).toNat, (j - 1).toNat) :: path
  if i = 1 ∧ j = 1 then some walked
  else
    match turned : turn? penalty table i j with
    | none => none
    | some (k, l) =>
        have := earlier_of_turn turned
        walkBack penalty table k l walked
termination_by (i * (m + 1) + j).toNat

def path? (penalty : α) (table : Grid α (n + 1) (m + 1)) : Option (List (Nat × Nat)) :=
  walkBack penalty table n m []

end Table

end EchoState.Warping
