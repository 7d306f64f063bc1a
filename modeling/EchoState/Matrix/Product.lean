import EchoState.Matrix.Operand

/-!
# Products

Matrix products and matrix-vector products. Stored matrices are multiplied without leaving their
buffers: a product adds multiples of the rows of its right factor and passes over zero factors, a
matrix-vector product passes over zero entries of the vector. Operands that are only visible
through a reader are multiplied cell by cell, and a product of such operands refuses results that
are not finite. All sums run from left to right, starting at zero.
-/

namespace EchoState

namespace Grid

variable {α : Type} [Scalar α] {rows inner cols : Nat}

/-- One row of a product: multiples of the rows of the right factor, added in order. -/
def mulRow (a : Grid α rows inner) (b : Grid α inner cols) (i : Fin rows) : Vector α cols :=
  inner.fold (fun k inside row =>
    let factor := a.get i ⟨k, inside⟩
    if Scalar.isZero factor then row
    else Vector.ofFn fun j => row[j] + factor * b.get ⟨k, inside⟩ j) (Vector.replicate cols 0)

def mul (a : Grid α rows inner) (b : Grid α inner cols) : Grid α rows cols :=
  ofRows (Vector.ofFn fun i => a.mulRow b i)

end Grid

namespace Sheet

variable {α : Type} [Scalar α] {rows inner cols : Nat}

/-- One cell of a product, over the entries of the left row that are not zero. -/
def cellSum (a : Sheet α rows inner) (b : Sheet α inner cols) (i : Fin rows) (j : Fin cols) : α :=
  Scalar.sumWhere inner (fun k => !Scalar.isZero (a.get i k)) (fun k => a.get i k * b.get k j)

/-- The product of two sheets. Whole grids are multiplied row by row; otherwise each kept cell is
computed on its own, so that nothing is read for a product without cells. -/
def mul (a : Sheet α rows inner) (b : Sheet α inner cols) : Sheet α rows cols :=
  match a, b with
  | .whole left, .whole right =>
      if rows * cols < wordLimit then .whole (left.mul right) else .ofFn (a.cellSum b)
  | _, _ => .ofFn (a.cellSum b)

theorem mul_whole (fits : rows * cols < wordLimit) (a : Grid α rows inner)
    (b : Grid α inner cols) : (whole a).mul (whole b) = .whole (a.mul b) :=
  if_pos fits

def rowDot (m : Sheet α rows cols) (x : Vector α cols) (i : Fin rows) : α :=
  Scalar.sumWhere cols (fun j => !Scalar.isZero (x.get j)) (fun j => m.get i j * x.get j)

def mulVec (m : Sheet α rows cols) (x : Vector α cols) : Vector α rows :=
  Vector.ofFn fun i => m.rowDot x i

end Sheet

/-- One row of a grid against a vector, as for the sheet that is this whole grid. -/
def Grid.rowDot {α : Type} [Scalar α] {rows cols : Nat} (m : Grid α rows cols) (x : Vector α cols)
    (i : Fin rows) : α :=
  (Sheet.whole m).rowDot x i

theorem Grid.rowDot_eq_sumWhere {α : Type} [Scalar α] {rows cols : Nat} (m : Grid α rows cols)
    (x : Vector α cols) (i : Fin rows) :
    m.rowDot x i =
      Scalar.sumWhere cols (fun j => !Scalar.isZero (x.get j)) (fun j => m.get i j * x.get j) :=
  rfl

@[simp]
theorem Sheet.rowDot_whole {α : Type} [Scalar α] {rows cols : Nat} (m : Grid α rows cols)
    (x : Vector α cols) (i : Fin rows) : (whole m).rowDot x i = m.rowDot x i :=
  rfl

def overwrite {α : Type} {n : Nat} (buffer : Vector α n) (f : Fin n → α → α) : Vector α n :=
  n.fold (fun i inside y => y.set i (f ⟨i, inside⟩ y[i])) buffer

/-- Once the entries below a bound are overwritten, those are new and the others are as before. -/
theorem getElem_fold_set {α : Type} {n : Nat} (buffer : Vector α n) (f : Fin n → α → α)
    (bound : Nat) (fits : bound ≤ n) (j : Nat) (inside : j < n) :
    (bound.fold (fun i _ y => y.set i (f ⟨i, by omega⟩ y[i])) buffer)[j] =
      if j < bound then f ⟨j, inside⟩ buffer[j] else buffer[j] := by
  induction bound with
  | zero => simp
  | succ bound ih =>
      have earlier := ih (Nat.le_of_succ_le fits)
      rw [Nat.fold_succ, Vector.getElem_set]
      by_cases last : bound = j
      · subst last
        rw [if_pos rfl, if_pos (Nat.lt_succ_self bound), earlier, if_neg (Nat.lt_irrefl bound)]
      · rw [if_neg last, earlier]
        have same : j < bound + 1 ↔ j < bound := by omega
        simp only [same]

@[simp]
theorem getElem_overwrite {α : Type} {n : Nat} (buffer : Vector α n) (f : Fin n → α → α) (j : Nat)
    (inside : j < n) : (overwrite buffer f)[j] = f ⟨j, inside⟩ buffer[j] := by
  have whole := getElem_fold_set buffer f n (Nat.le_refl n) j inside
  rw [if_pos inside] at whole
  exact whole

/-- Overwrites the entries of a buffer, first to last, from their values and results that may fail;
the entries before the first failure are overwritten, that one and the later ones are kept. -/
def overwriteWhile {α β : Type} {n : Nat} (put : α → β → α) (result : Fin n → Outcome α β)
    (buffer : Vector α n) : Outcome α Unit × Vector α n :=
  n.fold (fun i inside (outcome, y) =>
    match outcome, result ⟨i, inside⟩ with
    | .error error, _ => (.error error, y)
    | .ok (), .error error => (.error error, y)
    | .ok (), .ok value => (.ok (), y.set i (put y[i] value))) (.ok (), buffer)

namespace View

variable {α : Type} [Scalar α]

/-- One row against the first entries of a vector, every one of them included. -/
def dotUpTo (v : View α) (i : Nat) {n : Nat} (x : Vector α n) : (count : Nat) → count ≤ n →
    Outcome α α
  | 0, _ => .ok 0
  | count + 1, inside => do
      let total ← v.dotUpTo i x count (Nat.le_of_succ_le inside)
      let value ← Outcome.within (.reading i count) (v.read i count).outcome
      return total + value * x[count]

def rowDot (v : View α) {n : Nat} (x : Vector α n) (i : Nat) : Outcome α α :=
  v.dotUpTo i x n (Nat.le_refl n)

end View

namespace Operand

variable {α : Type} [Scalar α]

def read : Operand α → Nat → Nat → Reading α
  | .absent, _, _ => .error (.of .absent)
  | .stored m, i, j => .ofOutcome (m.cell i j)
  | .view v, i, j => v.read i j

/-- Adds the given number of products of row `i` and column `j`, from the `k`th on, to a total. A
zero left factor is passed over before its partner is read, and nothing is read after an error. -/
def addCellProducts (a b : Operand α) (i j : Nat) : (count k : Nat) → α → Outcome α α
  | 0, _, total => .ok total
  | count + 1, k, total => do
      let left ← Outcome.within (.reading i k) (a.read i k).outcome
      if Scalar.isZero left then addCellProducts a b i j count (k + 1) total
      else
        let right ← Outcome.within (.reading k j) (b.read k j).outcome
        addCellProducts a b i j count (k + 1) (total + left * right)

def cellProduct (a b : Operand α) (i j inner : Nat) : Outcome α α :=
  a.addCellProducts b i j inner 0 0

/-- The product of two operands read cell by cell; every result must be finite. -/
def productByCells (a b : Operand α) (rows inner cols : Nat) : Outcome α (Grid α rows cols) := do
  let cells ← collect fun position : Fin (rows * cols) => do
    let i := Grid.rowOf position
    let j := Grid.colOf position
    let value ← a.cellProduct b i j inner
    if Scalar.finite value then .ok value
    else .error ⟨[.storing i j, .cell .set i j], .notFinite⟩
  return ⟨cells⟩

def product (a b : Operand α) : Outcome α (Matrix α) :=
  Outcome.within (.kernel .product) <|
    match a, b with
    | .stored x, .stored y =>
        if same : y.rows = x.cols then
          .ok ⟨x.rows, y.cols, x.sheet.mul (y.sheet.cast same rfl)⟩
        else .error ⟨[.check .product], .shapeMismatch⟩
    | _, _ => do
        a.checkProduct b
        let (rows, cols) ← Matrix.dimensions a.rows b.cols
        return .ofGrid (← a.productByCells b rows a.cols.toNat cols)

/-- The product of an operand and a vector. A view that reports a negative number of rows has no
buffer for it. -/
def vectorProduct (m : Operand α) (x : Given α) : Outcome α (Array α) :=
  Outcome.within (.kernel .vectorProduct) <|
    match m with
    | .absent => .error ⟨[.check .present], .absent⟩
    | .stored s => do
        let entries ← x.ofLength s.cols
        return (s.sheet.mulVec entries).toArray
    | .view v => do
        let entries ← x.ofLength v.cols
        if v.rows < 0 then .error .negativeLength
        else do
          let y ← collect fun i : Fin v.rows.toNat => v.rowDot entries i
          return y.toArray

/-- Puts the product of an operand and a vector into a buffer and returns the buffer as it is
afterwards. The vector is checked before the buffer, and a refused call leaves the buffer as it
was. -/
def vectorProductWith (put : α → α → α) (m : Operand α) (x dst : Given α) :
    Outcome α Unit × Given α :=
  match m with
  | .absent => (.error ⟨[.check .present], .absent⟩, dst)
  | .stored s =>
      match x.ofLength s.cols, dst.ofLength s.rows with
      | .error error, _ => (.error error, dst)
      | .ok _, .error error => (.error error, dst)
      | .ok entries, .ok buffer =>
          (.ok (), some (overwrite buffer fun i old =>
            put old (s.sheet.rowDot entries i)).toArray)
  | .view v =>
      match x.ofLength v.cols, dst.ofLength v.rows with
      | .error error, _ => (.error error, dst)
      | .ok _, .error error => (.error error, dst)
      | .ok entries, .ok buffer =>
          let (outcome, y) := overwriteWhile put (fun i => v.rowDot entries i) buffer
          (outcome, some y.toArray)

def vectorProductInto (dst : Given α) (m : Operand α) (x : Given α) : Outcome α Unit × Given α :=
  let (outcome, y) := vectorProductWith (fun _ dot => dot) m x dst
  (outcome.within (.kernel .vectorProductInto), y)

/-- Adds the product of an operand and a vector to a buffer, each row sum being complete before it
is added. -/
def addVectorProductInto (dst : Given α) (m : Operand α) (x : Given α) : Outcome α Unit × Given α :=
  let (outcome, y) := vectorProductWith (fun old dot => old + dot) m x dst
  (outcome.within (.kernel .addVectorProductInto), y)

end Operand

end EchoState
