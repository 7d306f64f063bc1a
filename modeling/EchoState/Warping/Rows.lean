import EchoState.Warping.Plan

/-!
# Rolling rows

The distance of an alignment without its whole table. Two rows can be exchanged after each pass,
or one row can be overwritten in place while the diagonal neighbour is carried along; both compute
every cell from the same three neighbours as the table does.
-/

namespace EchoState.Warping

variable {α : Type} [Scalar α] {n m : Nat}

def topRow (m : Nat) : Vector α (m + 1) :=
  Vector.ofFn fun j => if j = 0 then 0 else Scalar.inf

namespace TwoRows

def fillRow (rule : Rule α) (cost : Fin n → Fin m → α) (i : Fin n)
    (above buffer : Vector α (m + 1)) : Vector α (m + 1) :=
  m.fold (fun j inside row =>
    row.set (j + 1) (rule.cell cost i ⟨j, inside⟩ above[j] above[j + 1] row[j]))
    (buffer.set 0 Scalar.inf)

def distance (rule : Rule α) (cost : Fin n → Fin m → α) : α :=
  let (row, _) := n.fold (fun i inside (above, buffer) =>
    (fillRow rule cost ⟨i, inside⟩ above buffer, above)) (topRow m, Vector.replicate (m + 1) 0)
  row[m]

end TwoRows

namespace OneRow

/-- Overwrites the row above by the row of the next sample. -/
def fillRow (rule : Rule α) (cost : Fin n → Fin m → α) (i : Fin n) (row : Vector α (m + 1)) :
    Vector α (m + 1) :=
  let (filled, _) := m.fold (fun j inside (current, diagonal) =>
    let above := current[j + 1]
    (current.set (j + 1) (rule.cell cost i ⟨j, inside⟩ diagonal above current[j]), above))
    (row.set 0 Scalar.inf, row[0])
  filled

def distance (rule : Rule α) (cost : Fin n → Fin m → α) : α :=
  let row := n.fold (fun i inside row => fillRow rule cost ⟨i, inside⟩ row) (topRow m)
  row[m]

end OneRow

end EchoState.Warping
