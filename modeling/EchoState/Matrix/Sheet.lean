import EchoState.Matrix.Grid

/-!
# Sheets

How the cells of a matrix are kept. Buffer positions are counted in signed 64-bit words. A shape
whose number of cells fits is kept as a whole grid (`exists_grid`), whose cells are those it was
made from (`get_ofFn`). A larger shape is folded: the number of cells and the position of each cell
wrap around, so that the buffer is shorter than the shape and cells may share a position.

A folded shape is not one to compute with. Its buffer cannot be made when the wrapped number is
negative, and touching a cell whose position lies outside the buffer stops the program. The
definitions below are total, so there they give a buffer without positions, a zero and the unchanged
sheet; what is stated of the value of cells is stated for shapes that fit.
-/

namespace EchoState

/-- One more than the largest number of cells that positions can tell apart. -/
def wordLimit : Nat :=
  Nat.pow 2 63

def wrapped (count : Nat) : Int :=
  let word := count % (2 * wordLimit)
  if word < wordLimit then word else word - 2 * wordLimit

theorem wrapped_le (count : Nat) : wrapped count ≤ count := by
  have below := Nat.mod_le count (2 * wordLimit)
  simp only [wrapped]
  split <;> omega

theorem wrapped_of_lt {count : Nat} (fits : count < wordLimit) : wrapped count = count := by
  have same : count % (2 * wordLimit) = count := Nat.mod_eq_of_lt (by omega)
  simp only [wrapped, same, if_pos fits]

/-- The length of the buffer that a shape asks for; for a negative one none can be made. -/
def bufferLength (rows cols : Nat) : Nat :=
  (wrapped (rows * cols)).toNat

theorem bufferLength_le (rows cols : Nat) : bufferLength rows cols ≤ rows * cols := by
  have bound := wrapped_le (rows * cols)
  simp only [bufferLength]
  omega

theorem bufferLength_of_lt {rows cols : Nat} (fits : rows * cols < wordLimit) :
    bufferLength rows cols = rows * cols := by
  simp only [bufferLength, wrapped_of_lt fits, Int.toNat_natCast]

/-- The cells of a matrix: a whole grid, or the shorter buffer of a shape that does not fit. -/
inductive Sheet (α : Type) (rows cols : Nat) where
  | whole (grid : Grid α rows cols)
  | folded (buffer : Vector α (bufferLength rows cols)) (tooMany : wordLimit ≤ rows * cols)

namespace Sheet

variable {α : Type} {rows cols : Nat}

theorem exists_grid (fits : rows * cols < wordLimit) (m : Sheet α rows cols) :
    ∃ grid : Grid α rows cols, m = .whole grid := by
  cases m with
  | whole grid => exact ⟨grid, rfl⟩
  | folded buffer tooMany => exact absurd fits (Nat.not_lt.mpr tooMany)

def ofBuffer (buffer : Vector α (bufferLength rows cols)) : Sheet α rows cols :=
  if tooMany : wordLimit ≤ rows * cols then .folded buffer tooMany
  else .whole ⟨buffer.cast (bufferLength_of_lt (Nat.lt_of_not_le tooMany))⟩

/-- The cell at which a buffer position is first reached, row by row. -/
def firstCell (position : Fin (bufferLength rows cols)) : Fin rows × Fin cols :=
  let place := position.castLE (bufferLength_le rows cols)
  (Grid.rowOf place, Grid.colOf place)

def ofFn (f : Fin rows → Fin cols → α) : Sheet α rows cols :=
  ofBuffer (Vector.ofFn fun position => f (firstCell position).1 (firstCell position).2)

/-- The buffer position of a cell, if the folded buffer reaches that far. -/
def position? (i : Fin rows) (j : Fin cols) : Option (Fin (bufferLength rows cols)) :=
  let position := wrapped (i.val * cols + j.val)
  if inside : 0 ≤ position ∧ position.toNat < bufferLength rows cols then
    some ⟨position.toNat, inside.2⟩
  else none

def get [Scalar α] (m : Sheet α rows cols) (i : Fin rows) (j : Fin cols) : α :=
  match m with
  | .whole grid => grid.get i j
  | .folded buffer _ =>
      match position? i j with
      | some position => buffer[position]
      | none => 0

@[simp]
theorem get_whole [Scalar α] (grid : Grid α rows cols) (i : Fin rows) (j : Fin cols) :
    (whole grid).get i j = grid.get i j :=
  rfl

def set (m : Sheet α rows cols) (i : Fin rows) (j : Fin cols) (value : α) : Sheet α rows cols :=
  match m with
  | .whole grid => .whole (grid.set i j value)
  | .folded buffer tooMany =>
      match position? i j with
      | some position => .folded (buffer.set position.val value position.isLt) tooMany
      | none => .folded buffer tooMany

@[simp]
theorem set_whole (grid : Grid α rows cols) (i : Fin rows) (j : Fin cols) (value : α) :
    (whole grid).set i j value = .whole (grid.set i j value) :=
  rfl

def cast {rows' cols' : Nat} (sameRows : rows = rows') (sameCols : cols = cols')
    (m : Sheet α rows cols) : Sheet α rows' cols' :=
  match m with
  | .whole grid => .whole (grid.cast sameRows sameCols)
  | .folded buffer tooMany =>
      .folded (buffer.cast (by rw [sameRows, sameCols]))
        (by rw [← sameRows, ← sameCols]; exact tooMany)

@[simp]
theorem cast_rfl (m : Sheet α rows cols) : m.cast rfl rfl = m := by
  cases m <;> rfl

def values : Sheet α rows cols → Array α
  | .whole grid => grid.cells.toArray
  | .folded buffer _ => buffer.toArray

/-- The cells that a row-major walk meets before the buffer ends. -/
def positions : Sheet α rows cols → List (Fin rows × Fin cols)
  | .whole _ => Grid.positions rows cols
  | .folded _ _ => (List.finRange (bufferLength rows cols)).map firstCell

section Numeric

variable [Scalar α]

theorem get_ofFn (fits : rows * cols < wordLimit) (f : Fin rows → Fin cols → α) (i : Fin rows)
    (j : Fin cols) : (ofFn f).get i j = f i j := by
  have place : (Grid.offset i j).val < bufferLength rows cols := by
    rw [bufferLength_of_lt fits]
    exact (Grid.offset i j).isLt
  have cell : firstCell ⟨(Grid.offset i j).val, place⟩ = (i, j) := by
    show (Grid.rowOf (Grid.offset i j), Grid.colOf (Grid.offset i j)) = (i, j)
    simp
  simp only [ofFn, ofBuffer, dif_neg (Nat.not_le_of_lt fits), get_whole, Grid.get,
    Fin.getElem_fin, Vector.getElem_cast, Vector.getElem_ofFn, cell]

def toGrid : Sheet α rows cols → Grid α rows cols
  | .whole grid => grid
  | .folded buffer tooMany => Grid.ofFn fun i j => (folded buffer tooMany).get i j

@[simp]
theorem toGrid_whole (grid : Grid α rows cols) : (whole grid).toGrid = grid :=
  rfl

@[simp]
theorem get_toGrid (m : Sheet α rows cols) (i : Fin rows) (j : Fin cols) :
    m.toGrid.get i j = m.get i j := by
  cases m with
  | whole grid => rfl
  | folded buffer tooMany => exact Grid.get_ofFn _ i j

def zero : Sheet α rows cols :=
  ofBuffer (Vector.replicate (bufferLength rows cols) 0)

@[simp]
theorem get_zero (i : Fin rows) (j : Fin cols) : (zero : Sheet α rows cols).get i j = 0 := by
  simp only [zero, ofBuffer]
  split
  · simp only [get]
    split <;> simp
  · simp [Grid.get]

def row (m : Sheet α rows cols) (i : Fin rows) : Vector α cols :=
  Vector.ofFn fun j => m.get i j

@[simp]
theorem getElem_row (m : Sheet α rows cols) (i : Fin rows) (j : Nat) (inside : j < cols) :
    (m.row i)[j] = m.get i ⟨j, inside⟩ := by
  simp [row]

def column (m : Sheet α rows cols) (j : Fin cols) : Vector α rows :=
  Vector.ofFn fun i => m.get i j

@[simp]
theorem getElem_column (m : Sheet α rows cols) (j : Fin cols) (i : Nat) (inside : i < rows) :
    (m.column j)[i] = m.get ⟨i, inside⟩ j := by
  simp [column]

def isZero : Sheet α rows cols → Bool
  | .whole grid => grid.isZero
  | .folded buffer _ => buffer.all Scalar.isZero

def firstNonFinite? : Sheet α rows cols → Option (Fin rows × Fin cols)
  | .whole grid => grid.firstNonFinite?
  | .folded buffer _ => (buffer.findFinIdx? fun value => !Scalar.finite value).map firstCell

/-- The cells seen by a visitor that walks the given positions and stops after the first cell at
which it does not want to go on. -/
def visitOver (m : Sheet α rows cols) (goOn : Fin rows → Fin cols → α → Bool) :
    List (Fin rows × Fin cols) → List (Fin rows × Fin cols × α)
  | [] => []
  | (i, j) :: rest =>
      (i, j, m.get i j) :: if goOn i j (m.get i j) then m.visitOver goOn rest else []

def visit (m : Sheet α rows cols) (goOn : Fin rows → Fin cols → α → Bool) :
    List (Fin rows × Fin cols × α) :=
  m.visitOver goOn m.positions

/-- Replaces the cells at the given positions in turn, up to the first new value that is not
finite; that cell and all later ones keep their values. -/
def applyOver (f : Fin rows → Fin cols → α → α) :
    List (Fin rows × Fin cols) → Sheet α rows cols → Outcome α Unit × Sheet α rows cols
  | [], m => (.ok (), m)
  | (i, j) :: rest, m =>
      let value := f i j (m.get i j)
      if Scalar.finite value then applyOver f rest (m.set i j value)
      else (.error ⟨[.cell .apply i j], .notFinite⟩, m)

/-- Replaces every cell by a function of its coordinates and its value, in row-major order, up to
the first new value that is not finite. -/
def apply (m : Sheet α rows cols) (f : Fin rows → Fin cols → α → α) :
    Outcome α Unit × Sheet α rows cols :=
  applyOver f m.positions m

def store (m : Sheet α rows cols) (i : Fin rows) (j : Fin cols) (value : α) :
    Outcome α (Sheet α rows cols) :=
  if Scalar.finite value then .ok (m.set i j value)
  else .error ⟨[.cell .set i j], .notFinite⟩

end Numeric

end Sheet

end EchoState
