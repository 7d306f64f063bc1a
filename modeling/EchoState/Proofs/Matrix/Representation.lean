import EchoState.Proofs.Matrix.Product
import EchoState.Proofs.Matrix.Walk

/-!
# Products and how their factors are represented

A factor of a product is kept in a buffer of this library, or it is only seen through a reader. Two
kept factors are multiplied row by row inside the buffer of the result; otherwise each cell is
summed on its own and refused unless it is finite. Both sum the same terms of a cell in the same
order, so the two ways differ in what they refuse and in nothing else.
-/

namespace EchoState

section Reads

variable {α β : Type} {n : Nat}

/-- What is left of a run of reads ends with its first failure. -/
theorem collectRest_eq_error {f : Fin n → Outcome α β} {i : Fin n} {error : Error α}
    (failed : f i = .error error) (earlier : ∀ k < i, ∃ value, f k = .ok value) {missing : Nat}
    (inside : missing ≤ n) (ahead : n - missing ≤ i.val) (read : Vector β (n - missing)) :
    collectRest f missing inside read = .error error := by
  induction missing with
  | zero => exact absurd i.isLt (Nat.not_lt.mpr ahead)
  | succ missing ih =>
      rw [collectRest_succ]
      by_cases here : i.val = n - (missing + 1)
      · have place : ⟨n - (missing + 1), by omega⟩ = i := Fin.ext here.symm
        rw [place, failed]
        rfl
      · have before : (⟨n - (missing + 1), by omega⟩ : Fin n) < i :=
          Nat.lt_of_le_of_ne ahead (Ne.symm here)
        obtain ⟨value, succeeded⟩ := earlier _ before
        rw [succeeded]
        exact ih (by omega) (by omega) _

theorem collect_eq_error {f : Fin n → Outcome α β} {i : Fin n} {error : Error α}
    (failed : f i = .error error) (earlier : ∀ k < i, ∃ value, f k = .ok value) :
    collect f = .error error :=
  collectRest_eq_error failed earlier (Nat.le_refl n) (by omega) _

end Reads

variable {α : Type} {rows inner cols : Nat}

theorem Grid.locate?_natCast (i : Fin rows) (j : Fin cols) :
    locate? rows cols i j = some (i, j) := by
  have inside : (0 ≤ (i.val : Int) ∧ (i.val : Int) < rows) ∧
      (0 ≤ (j.val : Int) ∧ (j.val : Int) < cols) := by omega
  exact dif_pos inside

variable [Scalar α]

namespace Sheet

/-- The cell is not finite, and every cell before it in row-major order is. -/
def FirstNonFinite (m : Sheet α rows cols) (i : Fin rows) (j : Fin cols) : Prop :=
  Scalar.finite (m.get i j) = false ∧
    ∀ i' j', i' < i ∨ i' = i ∧ j' < j → Scalar.finite (m.get i' j') = true

section FirstNonFinite

variable {m : Sheet α rows cols} {i i' : Fin rows} {j j' : Fin cols}

theorem firstNonFinite_iff_firstFailure :
    m.FirstNonFinite i j ↔ Grid.FirstFailure (fun i j => Scalar.finite (m.get i j)) i j :=
  Iff.rfl

theorem FirstNonFinite.unique (first : m.FirstNonFinite i j) (first' : m.FirstNonFinite i' j') :
    i = i' ∧ j = j' :=
  (firstNonFinite_iff_firstFailure.mp first).unique (firstNonFinite_iff_firstFailure.mp first')

theorem exists_firstNonFinite (some : ∃ i j, Scalar.finite (m.get i j) = false) :
    ∃ i j, m.FirstNonFinite i j :=
  Grid.exists_firstFailure some

end FirstNonFinite

theorem cell_natCast (m : Sheet α rows cols) (i : Fin rows) (j : Fin cols) :
    Matrix.cell ⟨rows, cols, m⟩ i j = .ok (m.get i j) := by
  unfold Matrix.cell
  rw [Grid.locate?_natCast]

end Sheet

namespace Operand

/-- The operand has the shape of the sheet, and reading it gives the cells of the sheet. -/
def Shows (m : Sheet α rows cols) : Operand α → Prop
  | .absent => False
  | .stored s => s = ⟨rows, cols, m⟩
  | .view v => v.rows = rows ∧ v.cols = cols ∧
      ∀ (i : Fin rows) (j : Fin cols), v.read i j = .ok (m.get i j)

def IsView (x : Operand α) : Prop :=
  ∃ v, x = .view v

theorem shows_ofMatrix (m : Sheet α rows cols) : Shows m (.view (.ofMatrix ⟨rows, cols, m⟩)) :=
  ⟨rfl, rfl, fun i j => congrArg Reading.ofOutcome (m.cell_natCast i j)⟩

namespace Shows

variable {a : Sheet α rows inner} {b : Sheet α inner cols} {x y : Operand α}

theorem isAbsent_eq (shows : x.Shows a) : x.isAbsent = false := by
  cases x with
  | absent => exact shows.elim
  | stored s => rfl
  | view v => rfl

theorem rows_eq (shows : x.Shows a) : x.rows = rows := by
  cases x with
  | absent => exact shows.elim
  | stored s => rw [show s = _ from shows]; rfl
  | view v => exact shows.1

theorem cols_eq (shows : x.Shows a) : x.cols = inner := by
  cases x with
  | absent => exact shows.elim
  | stored s => rw [show s = _ from shows]; rfl
  | view v => exact shows.2.1

theorem read_eq (shows : x.Shows a) (i : Fin rows) (k : Fin inner) :
    x.read i k = .ok (a.get i k) := by
  cases x with
  | absent => exact shows.elim
  | stored s =>
      rw [show s = _ from shows]
      exact (shows_ofMatrix a).2.2 i k
  | view v => exact shows.2.2 i k

theorem exists_read {v : View α} (shows : Shows a (.view v)) : ∃ read, v = ⟨rows, inner, read⟩ := by
  obtain ⟨r, c, read⟩ := v
  obtain ⟨rfl, rfl, -⟩ := shows
  exact ⟨read, rfl⟩

theorem checkPresent_eq (shows : x.Shows a) : x.checkPresent = .ok () := by
  cases x with
  | absent => exact shows.elim
  | stored s => rfl
  | view v => rfl

theorem checkProduct_eq (left : x.Shows a) (right : y.Shows b) : x.checkProduct y = .ok () := by
  unfold checkProduct
  rw [left.checkPresent_eq, right.checkPresent_eq, left.cols_eq, right.rows_eq]
  exact if_pos rfl

/-- The products that are still missing from a cell are those of the kept indices from here on. -/
theorem addCellProducts_eq (left : x.Shows a) (right : y.Shows b) (i : Fin rows) (j : Fin cols)
    {count k : Nat} (rest : k + count = inner) (total : α) :
    x.addCellProducts y i j count k total =
      .ok ((((List.finRange inner).drop k).filter fun t => !Scalar.isZero (a.get i t)).foldl
        (fun sum t => sum + a.get i t * b.get t j) total) := by
  induction count generalizing k total with
  | zero =>
      have done : (List.finRange inner).drop k = [] := List.drop_eq_nil_of_le (by simp; omega)
      rw [done]
      rfl
  | succ count ih =>
      have inside : k < inner := by omega
      have next : (List.finRange inner).drop k =
          ⟨k, inside⟩ :: (List.finRange inner).drop (k + 1) := by
        rw [List.drop_eq_getElem_cons (by simpa using inside), List.getElem_finRange]
        rfl
      have readLeft : x.read i k = .ok (a.get i ⟨k, inside⟩) := left.read_eq i ⟨k, inside⟩
      have readRight : y.read k j = .ok (b.get ⟨k, inside⟩ j) := right.read_eq ⟨k, inside⟩ j
      rw [addCellProducts, next, List.filter_cons, readLeft]
      simp only [Reading.outcome_ok, Outcome.within_ok, Outcome.ok_bind, readRight]
      cases Scalar.isZero (a.get i ⟨k, inside⟩) with
      | true => exact ih (by omega) total
      | false => exact ih (by omega) _

theorem cellProduct_eq (left : x.Shows a) (right : y.Shows b) (i : Fin rows) (j : Fin cols) :
    x.cellProduct y i j inner = .ok (a.cellSum b i j) := by
  unfold cellProduct Sheet.cellSum
  rw [left.addCellProducts_eq right i j (Nat.zero_add inner), Scalar.sumWhere_eq_foldl]
  rfl

/-- The product by cells collects the sums of the cells as long as they are finite. -/
theorem productByCells_eq (left : x.Shows a) (right : y.Shows b) :
    x.productByCells y rows inner cols =
      Grid.mk <$> collect fun position : Fin (rows * cols) =>
        let i := Grid.rowOf position
        let j := Grid.colOf position
        if Scalar.finite (a.cellSum b i j) then .ok (a.cellSum b i j)
        else .error ⟨[.storing i j, .cell .set i j], .notFinite⟩ := by
  unfold productByCells
  simp only [left.cellProduct_eq right, Outcome.ok_bind]
  rfl

theorem productByCells_of_finite (left : x.Shows a) (right : y.Shows b) {m : Grid α rows cols}
    (sums : ∀ i j, m.get i j = a.cellSum b i j) (finite : ∀ i j, Scalar.finite (m.get i j) = true) :
    x.productByCells y rows inner cols = .ok m := by
  rw [left.productByCells_eq right, (collect_eq_ok_iff _ m.cells).mpr]
  · rfl
  · intro position
    have cell := sums (Grid.rowOf position) (Grid.colOf position)
    have whole := finite (Grid.rowOf position) (Grid.colOf position)
    rw [cell] at whole
    dsimp only
    rw [if_pos whole, ← cell, Grid.get_rowOf_colOf]

theorem productByCells_of_firstNonFinite (left : x.Shows a) (right : y.Shows b)
    {m : Sheet α rows cols} (sums : ∀ i j, m.get i j = a.cellSum b i j)
    {i : Fin rows} {j : Fin cols} (first : m.FirstNonFinite i j) :
    x.productByCells y rows inner cols =
      .error ⟨[.storing i j, .cell .set i j], .notFinite⟩ := by
  rw [left.productByCells_eq right, collect_eq_error (i := Grid.offset i j)]
  · rfl
  · dsimp only
    rw [Grid.rowOf_offset, Grid.colOf_offset, ← sums, first.1]
    rfl
  · intro position earlier
    rw [← Grid.offset_rowOf_colOf position, Grid.offset_lt_offset_iff] at earlier
    have whole := first.2 _ _ earlier
    rw [sums] at whole
    exact ⟨_, if_pos whole⟩

end Shows

/-- Operands that are not both stored are multiplied by cells. -/
theorem product_eq_byCells {x y : Operand α} {a : Sheet α rows inner} {b : Sheet α inner cols}
    (left : x.Shows a) (right : y.Shows b) (hidden : x.IsView ∨ y.IsView) :
    x.product y = Outcome.within (.kernel .product)
      (Matrix.ofGrid <$> x.productByCells y rows inner cols) := by
  have byCells : x.product y = Outcome.within (.kernel .product)
      (x.checkProduct y >>= fun _ => Matrix.dimensions x.rows y.cols >>= fun shape =>
        Matrix.ofGrid <$> x.productByCells y shape.1 x.cols.toNat shape.2) := by
    rcases hidden with ⟨v, rfl⟩ | ⟨v, rfl⟩
    · rfl
    · cases x with
      | absent => rfl
      | stored s => rfl
      | view w => rfl
  rw [byCells, left.checkProduct_eq right, left.rows_eq, right.cols_eq, left.cols_eq,
    Matrix.dimensions_natCast, Int.toNat_natCast]
  rfl

theorem product_stored (a : Sheet α rows inner) (b : Sheet α inner cols) :
    (stored ⟨rows, inner, a⟩).product (.stored ⟨inner, cols, b⟩) = .ok ⟨rows, cols, a.mul b⟩ := by
  unfold product
  dsimp only
  rw [dif_pos rfl, Sheet.cast_rfl]
  rfl

/-- The product of two stored matrices is always made, each cell being the sum from left to right,
starting at zero, of the products whose left factor is not zero. Operands that show the same two
matrices, one or both of them through a reader, have the same product as long as all its cells are
finite; otherwise they are refused at the first cell, row by row, that is not. Nothing is assumed
of the arithmetic; the cells of both factors and of the product can be counted. -/
theorem product_across_representations (leftFits : rows * inner < wordLimit)
    (rightFits : inner * cols < wordLimit) (fits : rows * cols < wordLimit)
    (a : Sheet α rows inner) (b : Sheet α inner cols) :
    ∃ m : Sheet α rows cols,
      (stored ⟨rows, inner, a⟩).product (.stored ⟨inner, cols, b⟩) = .ok ⟨rows, cols, m⟩ ∧
      (∀ i j, m.get i j =
        ((List.finRange inner).filter fun t => !Scalar.isZero (a.get i t)).foldl
          (fun total t => total + a.get i t * b.get t j) 0) ∧
      ∀ x y : Operand α, x.Shows a → y.Shows b → x.IsView ∨ y.IsView →
        ((∀ i j, Scalar.finite (m.get i j) = true) → x.product y = .ok ⟨rows, cols, m⟩) ∧
        ((∃ i j, Scalar.finite (m.get i j) = false) →
          ∃ i j, m.FirstNonFinite i j ∧ x.product y =
            .error ⟨[.kernel .product, .storing i j, .cell .set i j], .notFinite⟩) := by
  obtain ⟨a, rfl⟩ := Sheet.exists_grid leftFits a
  obtain ⟨b, rfl⟩ := Sheet.exists_grid rightFits b
  have made := product_stored (.whole a) (.whole b)
  have sums (i : Fin rows) (j : Fin cols) := Sheet.get_mul fits (.whole a) (.whole b) i j
  rw [Sheet.mul_whole fits] at made sums
  refine ⟨_, made, fun i j => ?_, fun x y left right hidden => ⟨?_, ?_⟩⟩
  · exact (sums i j).trans (Scalar.sumWhere_eq_foldl inner _ _)
  · intro finite
    rw [product_eq_byCells left right hidden, left.productByCells_of_finite right sums finite]
    rfl
  · intro bad
    obtain ⟨i, j, first⟩ := Sheet.exists_firstNonFinite bad
    refine ⟨i, j, first, ?_⟩
    rw [product_eq_byCells left right hidden,
      left.productByCells_of_firstNonFinite right sums first]
    rfl

/-- Two factors in binary64 whose product is not finite in its second row: in the first row a zero
factor keeps the cells that are not finite out of the sum. Behind a reader the product is refused
where the second row starts. -/
theorem product_across_representations_binary64 :
    let a : Sheet Float 2 2 := .whole ⟨#v[1, -0, Scalar.inf, 2]⟩
    let b : Sheet Float 2 2 := .whole ⟨#v[1, 0.5, Scalar.nan, Scalar.inf]⟩
    2 * 2 < wordLimit ∧ (view (.ofMatrix ⟨2, 2, a⟩)).Shows a ∧ (stored ⟨2, 2, b⟩).Shows b ∧
      (view (.ofMatrix ⟨2, 2, a⟩)).product (.stored ⟨2, 2, b⟩) =
        .error ⟨[.kernel .product, .storing 1 0, .cell .set 1 0], .notFinite⟩ := by
  intro a b
  have left := shows_ofMatrix a
  have right : (stored ⟨2, 2, b⟩).Shows b := rfl
  have fits : 2 * 2 < wordLimit := by decide
  refine ⟨fits, left, right, ?_⟩
  obtain ⟨m, -, cells, others⟩ := product_across_representations fits fits fits a b
  have second : m.FirstNonFinite 1 0 := by
    constructor
    · rw [cells]
      with_unfolding_all decide
    · intro i j before
      rw [cells]
      revert i j
      with_unfolding_all decide
  obtain ⟨i, j, first, refused⟩ := (others _ _ left right (.inl ⟨_, rfl⟩)).2 ⟨1, 0, second.1⟩
  obtain ⟨rfl, rfl⟩ := first.unique second
  exact refused

end Operand

end EchoState
