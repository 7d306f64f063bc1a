import EchoState.Matrix.Product
import EchoState.Proofs.Control
import EchoState.Proofs.Matrix.Finite
import EchoState.Proofs.Scalar.Zero

/-!
# Cells of products

A product adds multiples of rows, and a cell of it is the sum over its row and column from left to
right without the terms whose left factor is zero. A matrix-vector product leaves out the terms
whose vector entry is zero instead; over finite factors the two sums are the same.
-/

namespace EchoState

variable {α : Type} [Scalar α] {rows inner cols : Nat}

/-- One cell of a row of a product. -/
theorem Grid.get_mulRow (a : Grid α rows inner) (b : Grid α inner cols) (i : Fin rows)
    (j : Fin cols) :
    (a.mulRow b i).get j = Scalar.sumWhere inner (fun k => !Scalar.isZero (a.get i k))
      (fun k => a.get i k * b.get k j) := by
  unfold mulRow Scalar.sumWhere
  have start : (Vector.replicate cols (0 : α)).get j = 0 := Vector.getElem_replicate j.isLt
  refine Eq.trans (fold_project (fun row : Vector α cols => row.get j) _ _ ?_ _) (by rw [start])
  intro k inside row
  by_cases zero : Scalar.isZero (a.get i ⟨k, inside⟩) = true
  · simp [zero]
  · simp only [zero, Bool.not_false, if_true]
    exact Vector.getElem_ofFn j.isLt

theorem Grid.get_mul (a : Grid α rows inner) (b : Grid α inner cols) (i : Fin rows)
    (j : Fin cols) :
    (a.mul b).get i j = Scalar.sumWhere inner (fun k => !Scalar.isZero (a.get i k))
      (fun k => a.get i k * b.get k j) := by
  unfold mul
  rw [get_ofRows]
  simp only [Fin.getElem_fin, Vector.getElem_ofFn]
  exact get_mulRow a b i j

/-- Under a shape that fits, a cell of a product is the sum over its row and column. -/
theorem Sheet.get_mul (fits : rows * cols < wordLimit) (a : Sheet α rows inner)
    (b : Sheet α inner cols) (i : Fin rows) (j : Fin cols) :
    (a.mul b).get i j = a.cellSum b i j := by
  unfold mul
  split
  · rw [if_pos fits, get_whole, Grid.get_mul]
    rfl
  · exact get_ofFn fits _ i j

/-- What holds of zero and of every given cell holds of the cells that are kept of them. -/
theorem Sheet.get_ofFn_induction {motive : α → Prop} (zero : motive 0)
    {f : Fin rows → Fin cols → α} (cells : ∀ i j, motive (f i j)) (i : Fin rows) (j : Fin cols) :
    motive ((ofFn f).get i j) := by
  by_cases fits : rows * cols < wordLimit
  · rw [get_ofFn fits]
    exact cells i j
  · have folded : ofFn f = .folded (.ofFn fun position => f (firstCell position).1
        (firstCell position).2) (Nat.le_of_not_lt fits) := dif_pos (Nat.le_of_not_lt fits)
    rw [folded, get]
    cases position? i j with
    | none => exact zero
    | some position =>
        simp only [Fin.getElem_fin, Vector.getElem_ofFn]
        exact cells _ _

/-- What holds of zero and of the sums over rows and columns holds of the cells of a product,
whether or not its shape fits. -/
theorem Sheet.get_mul_induction {motive : α → Prop} (zero : motive 0) {a : Sheet α rows inner}
    {b : Sheet α inner cols} (sums : ∀ i j, motive (a.cellSum b i j)) (i : Fin rows)
    (j : Fin cols) : motive ((a.mul b).get i j) := by
  by_cases fits : rows * cols < wordLimit
  · rw [get_mul fits]
    exact sums i j
  · have computed : a.mul b = .ofFn (a.cellSum b) := by
      unfold mul
      split
      · exact if_neg fits
      · rfl
    rw [computed]
    exact get_ofFn_induction zero sums i j

/-- Products with whole grids are the same when all their sums are. -/
theorem Sheet.mul_whole_congr {a : Sheet α rows inner} {b b' : Grid α inner cols}
    (same : ∀ i j, a.cellSum (.whole b) i j = a.cellSum (.whole b') i j) :
    a.mul (.whole b) = a.mul (.whole b') := by
  have sums : a.cellSum (.whole b) = a.cellSum (.whole b') :=
    funext fun i => funext (same i)
  cases a with
  | folded buffer tooMany => exact congrArg ofFn sums
  | whole left =>
      by_cases fits : rows * cols < wordLimit
      · rw [mul_whole fits, mul_whole fits]
        refine congrArg whole (Grid.ext_get fun i j => ?_)
        rw [Grid.get_mul, Grid.get_mul]
        exact same i j
      · exact (if_neg fits).trans ((congrArg ofFn sums).trans (if_neg fits).symm)

theorem Sheet.get_mulVec (m : Sheet α rows cols) (x : Vector α cols) (i : Fin rows) :
    (m.mulVec x).get i = m.rowDot x i :=
  Vector.getElem_ofFn i.isLt

/-- Over finite factors a cell of a product is the row of the left factor against the column of the
right one as a vector: the two leave out different zeros. -/
theorem Sheet.cellSum_eq_rowDot [SignedZeroScalar α] {a : Sheet α rows inner}
    {b : Sheet α inner cols} {x : Vector α inner} {i : Fin rows} {j : Fin cols}
    (column : ∀ k, b.get k j = x.get k) (aFinite : ∀ k, Scalar.finite (a.get i k) = true)
    (xFinite : ∀ k, Scalar.finite (x.get k) = true) : a.cellSum b i j = a.rowDot x i := by
  unfold cellSum rowDot
  simp only [column]
  apply Scalar.sumWhere_congr_zeros
  · intro k left
    exact SignedZeroScalar.isZero_mul_left (xFinite k) (by simpa using left)
  · intro k left
    exact SignedZeroScalar.isZero_mul_right (aFinite k) (by simpa using left)

namespace Operand

/-- A kernel on a stored matrix succeeds on a vector and a buffer of fitting lengths. -/
theorem vectorProductWith_stored (put : α → α → α) (m : Matrix α) (x : Vector α m.cols)
    (buffer : Vector α m.rows) :
    vectorProductWith put (.stored m) (some x.toArray) (some buffer.toArray) =
      (.ok (), some (overwrite buffer fun i old => put old (m.sheet.rowDot x i)).toArray) := by
  unfold vectorProductWith
  simp only [Given.ofLength_toArray]
  rfl

theorem vectorProductInto_stored (m : Matrix α) (x : Vector α m.cols) (buffer : Vector α m.rows) :
    vectorProductInto (some buffer.toArray) (.stored m) (some x.toArray) =
      (.ok (), some (overwrite buffer fun i _ => m.sheet.rowDot x i).toArray) := by
  unfold vectorProductInto
  rw [vectorProductWith_stored]
  rfl

theorem addVectorProductInto_stored (m : Matrix α) (x : Vector α m.cols)
    (buffer : Vector α m.rows) :
    addVectorProductInto (some buffer.toArray) (.stored m) (some x.toArray) =
      (.ok (), some (overwrite buffer fun i old => old + m.sheet.rowDot x i).toArray) := by
  unfold addVectorProductInto
  rw [vectorProductWith_stored]
  rfl

end Operand

end EchoState
