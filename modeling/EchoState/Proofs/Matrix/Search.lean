import EchoState.Proofs.Matrix.Acceptance
import EchoState.Proofs.Reservoir.Base

/-!
# Searches for a cell that is not finite

A stored matrix is searched through its buffer, and what is found there is a position, from which
the coordinates are recovered by a division and its remainder. A matrix behind a reader is searched
by rows and in a row from left to right. Both find the same cell, since the buffer keeps the cells
in that order, and a buffer in which something is found belongs to a shape with columns, so that
the division is never by zero. The shapes are those whose cells can be counted: the buffer of a
larger shape does not reach all of its cells.
-/

namespace EchoState

/-! ## Searches by counting -/

section Counting

variable {β : Type} {f : Nat → Option β} {count start k : Nat} {result : β}

/-- A run of attempts ends with the first one that succeeds. -/
theorem firstFrom_eq_some (succeeds : f k = some result)
    (earlier : ∀ k', start ≤ k' → k' < k → f k' = none) (ahead : start ≤ k)
    (inside : k < start + count) : firstFrom f count start = some result := by
  induction count generalizing start with
  | zero => exact absurd inside (Nat.not_lt.mpr ahead)
  | succ count ih =>
      rw [firstFrom]
      by_cases here : start = k
      · rw [here, succeeds]
      · rw [earlier start (Nat.le_refl start) (Nat.lt_of_le_of_ne ahead here)]
        exact ih (fun k' after => earlier k' (by omega)) (by omega) (by omega)

theorem firstFrom_eq_none (nowhere : ∀ k, start ≤ k → k < start + count → f k = none) :
    firstFrom f count start = none := by
  rw [firstFrom_eq_findSome?, List.findSome?_eq_none_iff]
  intro k listed
  rw [List.mem_range'_1] at listed
  exact nowhere k listed.1 listed.2

end Counting

variable {α : Type} {rows cols : Nat}

/-! ## The buffer -/

theorem findIdx?_toArray {n : Nat} {buffer : Vector α n} {test : α → Bool} {position : Fin n}
    (found : buffer.findFinIdx? test = some position) :
    buffer.toArray.findIdx? test = some position.val := by
  obtain ⟨values, rfl⟩ := buffer
  rw [Array.findIdx?_eq_map_findFinIdx?_val]
  have values := congrArg (Option.map fun position => position.val) found
  simpa [Vector.findFinIdx?] using values

variable [Scalar α]

namespace Sheet

/-- The buffer position and the cell at which a sheet is first not finite. -/
structure FirstFound (m : Sheet α rows cols) (position : Nat) (i : Fin rows) (j : Fin cols) :
    Prop where
  inBuffer : m.values.findIdx? (fun value => !Scalar.finite value) = some position
  hasColumns : 0 < cols
  row : i.val = position / cols
  col : j.val = position % cols
  inOrder : m.FirstNonFinite i j

/-- The search of a buffer finds the first cell, row by row, that is not finite. -/
theorem firstFound_of_search (fits : rows * cols < wordLimit) {m : Sheet α rows cols} {i : Fin rows}
    {j : Fin cols} (found : m.firstNonFinite? = some (i, j)) :
    ∃ position, m.FirstFound position i j := by
  have notFinite := finite_get_of_search fits found
  obtain ⟨grid, rfl⟩ := exists_grid fits m
  obtain ⟨position, bad, cell⟩ := Option.map_eq_some_iff.mp found
  obtain ⟨rfl, rfl⟩ := Prod.mk.inj cell
  refine ⟨position, findIdx?_toArray bad, Grid.cols_pos position, rfl, rfl, notFinite, ?_⟩
  intro i' j' before
  rw [← Grid.offset_lt_offset_iff, Grid.offset_rowOf_colOf] at before
  have earlier := (findFinIdx?_eq_some_iff.mp bad).2 _ before
  exact Bool.not_inj earlier

end Sheet

/-! ## Readers -/

namespace View

variable {m : Sheet α rows cols} {v : View α} (shows : (Operand.view v).Shows m)

include shows

theorem nonFiniteAt_of_shows (i : Fin rows) (j : Fin cols) :
    v.nonFiniteAt i j = !Scalar.finite (m.get i j) := by
  unfold nonFiniteAt
  rw [shows.2.2 i j, Reading.value_ok]

theorem firstNonFinite?_of_first {i : Fin rows} {j : Fin cols} (first : m.FirstNonFinite i j) :
    v.firstNonFinite? = some (i.val, j.val) := by
  have passes (i' : Fin rows) (j' : Fin cols) (before : i' < i ∨ i' = i ∧ j' < j) :
      v.nonFiniteAt i' j' = false := by
    rw [nonFiniteAt_of_shows shows, first.2 i' j' before]
    rfl
  have here : v.nonFiniteAt i j = true := by
    rw [nonFiniteAt_of_shows shows, first.1]
    rfl
  unfold firstNonFinite?
  rw [shows.1, shows.2.1, Int.toNat_natCast, Int.toNat_natCast]
  refine firstFrom_eq_some (k := i) ?row (fun i' _ above => ?above) (Nat.zero_le _) (by omega)
  case row =>
    refine firstFrom_eq_some (k := j) (if_pos here) (fun j' _ left => if_neg ?left)
      (Nat.zero_le _) (by omega)
    rw [Bool.not_eq_true]
    exact passes i ⟨j', by omega⟩ (.inr ⟨rfl, left⟩)
  case above =>
    refine firstFrom_eq_none fun j' _ inside => if_neg ?_
    rw [Bool.not_eq_true]
    exact passes ⟨i', by omega⟩ ⟨j', by omega⟩ (.inl above)

theorem firstNonFinite?_of_finite (finite : ∀ i j, Scalar.finite (m.get i j) = true) :
    v.firstNonFinite? = none := by
  cases found : v.firstNonFinite? with
  | none => rfl
  | some cell =>
      obtain ⟨inRows, inCols, bad⟩ := nonFiniteAt_of_found found
      rw [shows.1] at inRows
      rw [shows.2.1] at inCols
      rw [nonFiniteAt_of_shows shows ⟨cell.1, by omega⟩ ⟨cell.2, by omega⟩, finite] at bad
      cases bad

end View

/-! ## Both searches -/

namespace Matrix

/-- A stored matrix and a reader that shows the same cells are both found to be finite, or both
searches end at the same cell, the first one row by row that is not finite; the position that the
buffer gives for it is divided by a number of columns that is not zero. A buffer of the right length
is made into a matrix exactly when all its values are finite, and is refused at that same cell
otherwise. -/
theorem searches_find_first_cell (zeroFinite : Scalar.finite (0 : α) = true) {rows cols : Nat}
    (fits : rows * cols < wordLimit) :
    (∀ (m : Sheet α rows cols) (v : View α), (Operand.view v).Shows m →
      (AllFinite m.values ∧ (∀ i j, Scalar.finite (m.get i j) = true) ∧
        (Operand.stored ⟨rows, cols, m⟩).checkFinite = .ok () ∧
        (Operand.view v).checkFinite = .ok ()) ∨
      ∃ position i j, m.FirstFound position i j ∧
        (Operand.stored ⟨rows, cols, m⟩).checkFinite = .error ⟨[.cell .scan i j], .notFinite⟩ ∧
        (Operand.view v).checkFinite = .error ⟨[.scanned i j], .notFinite⟩) ∧
    ∀ values : Array α, values.size = rows * cols →
      ∃ m : Sheet α rows cols, m.values = values ∧
        (AllFinite values ∧ ofValues rows cols values = .ok ⟨rows, cols, m⟩ ∨
          ∃ position i j, m.FirstFound position i j ∧
            ofValues rows cols values = .error ⟨[.cell .set i j], .notFinite⟩) := by
  constructor
  · intro m v shows
    cases found : m.firstNonFinite? with
    | none =>
        have all := Sheet.allFinite_values_of_search found
        have finite := Sheet.finite_get zeroFinite all
        refine .inl ⟨all, finite, ?_, ?_⟩
        · simp only [Operand.checkFinite, found]
        · simp only [Operand.checkFinite, View.firstNonFinite?_of_finite shows finite]
    | some cell =>
        obtain ⟨position, first⟩ :=
          Sheet.firstFound_of_search fits (i := cell.1) (j := cell.2) found
        refine .inr ⟨position, cell.1, cell.2, first, ?_, ?_⟩
        · simp only [Operand.checkFinite, found]
        · simp only [Operand.checkFinite, View.firstNonFinite?_of_first shows first.inOrder]
  · intro values size
    have filled : (values.size : Int) = wrapped (rows * cols) := by
      rw [wrapped_of_lt fits, size]
    obtain ⟨m, kept, made, refused⟩ := exists_ofValues filled
    refine ⟨m, kept, ?_⟩
    cases found : m.firstNonFinite? with
    | none => exact .inl ⟨kept ▸ Sheet.allFinite_values_of_search found, made found⟩
    | some cell =>
        obtain ⟨position, first⟩ :=
          Sheet.firstFound_of_search fits (i := cell.1) (j := cell.2) found
        exact .inr ⟨position, cell.1, cell.2, first, refused _ _ found⟩

/-- Two rows in binary64, the second of which starts with a cell that is no number, and a shape
without columns, whose buffer has no cell to be divided into coordinates. -/
theorem searches_find_first_cell_binary64 :
    let m : Sheet Float 2 3 := .whole ⟨#v[1, -0, 0.5, Scalar.nan, 4, Scalar.inf]⟩
    Scalar.finite (0 : Float) = true ∧ 2 * 3 < wordLimit ∧ 3 * 0 < wordLimit ∧
      (Operand.stored ⟨2, 3, m⟩).checkFinite = .error ⟨[.cell .scan 1 0], .notFinite⟩ ∧
      (Operand.view (.ofMatrix ⟨2, 3, m⟩)).checkFinite = .error ⟨[.scanned 1 0], .notFinite⟩ ∧
      ∃ empty : Sheet Float 3 0, ofValues 3 0 #[] = .ok ⟨3, 0, empty⟩ := by
  intro m
  have zeroFinite : Scalar.finite (0 : Float) = true := MeasuredScalar.finite_zero
  have secondRow : m.FirstNonFinite 1 0 := by
    unfold Sheet.FirstNonFinite
    with_unfolding_all decide
  have fits : 2 * 3 < wordLimit := by decide
  have fitsEmpty : 3 * 0 < wordLimit := by decide
  obtain ⟨checks, -⟩ := searches_find_first_cell zeroFinite fits
  obtain ⟨-, makes⟩ := searches_find_first_cell zeroFinite fitsEmpty
  rcases checks m _ (Operand.shows_ofMatrix m) with
    ⟨-, finite, -⟩ | ⟨position, i, j, first, stored, viewed⟩
  · exact absurd (finite 1 0) (by rw [secondRow.1]; exact Bool.false_ne_true)
  · obtain ⟨rfl, rfl⟩ := first.inOrder.unique secondRow
    refine ⟨zeroFinite, fits, fitsEmpty, stored, viewed, ?_⟩
    obtain ⟨empty, -, ⟨-, made⟩ | ⟨position, i, j, first, -⟩⟩ := makes #[] rfl
    · exact ⟨empty, made⟩
    · exact absurd first.hasColumns (Nat.lt_irrefl 0)

end Matrix

end EchoState
