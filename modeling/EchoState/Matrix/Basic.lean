import EchoState.Matrix.Sheet

/-!
# Matrices with their own shape

A matrix bundles a shape with a sheet of that shape. Constructors take integer dimensions
and refuse negative ones; cell access takes integer coordinates and refuses those outside. Cells
are finite unless a matrix comes out of a product.
-/

namespace EchoState

structure Matrix (α : Type) where
  rows : Nat
  cols : Nat
  sheet : Sheet α rows cols

namespace Matrix

variable {α : Type}

def ofGrid {rows cols : Nat} (grid : Grid α rows cols) : Matrix α :=
  ⟨rows, cols, .whole grid⟩

def dimensions (rows cols : Int) : Outcome α (Nat × Nat) :=
  if rows < 0 ∨ cols < 0 then .error (.of .negativeDimension) else .ok (rows.toNat, cols.toNat)

def values (m : Matrix α) : Array α :=
  m.sheet.values

variable [Scalar α]

def cell (m : Matrix α) (i j : Int) : Outcome α α :=
  match Grid.locate? m.rows m.cols i j with
  | some (row, col) => .ok (m.sheet.get row col)
  | none => .error ⟨[.cell .get i j], .outOfRange⟩

def row (m : Matrix α) (i : Int) : Outcome α (Vector α m.cols) :=
  if inside : 0 ≤ i ∧ i < m.rows then .ok (m.sheet.row ⟨i.toNat, by omega⟩)
  else .error ⟨[.row i], .outOfRange⟩

def zeros (rows cols : Int) : Outcome α (Matrix α) := do
  let (r, c) ← dimensions rows cols
  return ⟨r, c, .zero⟩

def identity (n : Int) : Outcome α (Matrix α) := do
  let (size, _) ← dimensions n n
  return ⟨size, size, .ofFn fun i j => if i = j then 1 else 0⟩

/-- The matrix whose cells are the given values row by row; there must be as many values as the
shape has cells, counted in words, and all of them must be finite. -/
def ofValues (rows cols : Int) (values : Array α) : Outcome α (Matrix α) := do
  let (r, c) ← dimensions rows cols
  if filled : (values.size : Int) = wrapped (r * c) then
    let sheet : Sheet α r c := .ofBuffer ⟨values, by simp only [bufferLength]; omega⟩
    match sheet.firstNonFinite? with
    | some (i, j) => .error ⟨[.cell .set i j], .notFinite⟩
    | none => .ok ⟨r, c, sheet⟩
  else .error ⟨[.cellsFor rows cols, .length values.size], .shapeMismatch⟩

/-- Replaces the value at integer coordinates; coordinates are checked before the value. -/
def set (m : Matrix α) (i j : Int) (value : α) : Outcome α (Matrix α) :=
  match Grid.locate? m.rows m.cols i j with
  | some (row, col) => do
      let sheet ← m.sheet.store row col value
      return ⟨m.rows, m.cols, sheet⟩
  | none => .error ⟨[.cell .set i j], .outOfRange⟩

/-- Replaces every value in row-major order, up to the first new value that is not finite. -/
def apply (m : Matrix α) (f : Nat → Nat → α → α) : Outcome α Unit × Matrix α :=
  let (outcome, sheet) := m.sheet.apply fun i j => f i j
  (outcome, ⟨m.rows, m.cols, sheet⟩)

def isZero (m : Matrix α) : Bool :=
  m.sheet.isZero

/-- The coordinates and values seen by a row-major visitor, up to and including the first cell at
which it does not want to go on. -/
def visit (m : Matrix α) (goOn : Nat → Nat → α → Bool) : List (Nat × Nat × α) :=
  (m.sheet.visit fun i j => goOn i j).map fun (i, j, value) => (i.val, j.val, value)

end Matrix

end EchoState
