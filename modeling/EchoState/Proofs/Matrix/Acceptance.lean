import EchoState.Proofs.Demand
import EchoState.Proofs.Matrix.Representation

/-!
# What is demanded of operands

The checks of operands, stated without the searches that carry them out: an operand is given, has a
shape, has no cell whose value is not finite, and has no cell that cannot be read. The last two are
told apart although one cell may have both faults, because all values are searched before the first
error is looked at. Only shapes whose cells can be counted are considered: the cells of a larger one
are not all in the buffer of a stored matrix, and no view of it can be copied.
-/

namespace EchoState

variable {α : Type}

/-! ## Demands -/

namespace Operand

def Inside (x : Operand α) (i j : Nat) : Prop :=
  (i : Int) < x.rows ∧ (j : Int) < x.cols

/-- The cell cannot be read for the given reason, and every cell before it in row-major order can
be. -/
structure FirstUnreadable [Scalar α] (x : Operand α) (i j : Nat) (error : Error α) : Prop where
  inside : x.Inside i j
  unreadable : (x.read i j).outcome = .error error
  readable : ∀ i' j', i' < i ∨ i' = i ∧ j' < j → x.Inside i' j' → ∃ value, x.read i' j' = .ok value

end Operand

namespace Demand

def given (x : Operand α) : Demand :=
  .orElse (x.isAbsent = false) .absent

def square (x : Operand α) : Demand :=
  .orElse (x.rows = x.cols) .shapeMismatch

def shape (x : Operand α) (rows cols : Int) : Demand :=
  .orElse (x.rows = rows ∧ x.cols = cols) .shapeMismatch

def givenVector (x : Given α) : Demand :=
  .orElse (x.isSome = true) .absent

def length (x : Given α) (n : Int) : Demand :=
  .orElse (x.size = n) .shapeMismatch

variable [Scalar α]

/-- No cell has an infinity or no number for its value, whether or not it can be read. -/
def finiteCells (x : Operand α) : Demand :=
  .orElse (∀ i j, x.Inside i j → Scalar.finite (x.read i j).value = true) .notFinite

/-- Every cell can be read; otherwise the reason of the first cell that cannot be is reported. -/
def readableCells (x : Operand α) : Demand where
  met := ∀ i j, x.Inside i j → ∃ value, x.read i j = .ok value
  reports cause := ∃ i j error, x.FirstUnreadable i j error ∧ error.cause = cause

def finiteEntries (x : Given α) : Demand :=
  .orElse (∀ values, x = some values → AllFinite values) .notFinite

def entriesInside (x : Given α) : Demand :=
  .orElse (∀ values, x = some values →
    ∀ value ∈ values, Scalar.lt (Scalar.abs value) 1 = true) .outsideDomain

end Demand

/-! ## Searches -/

/-- Among results that are not all there, there is a first one that is not. -/
theorem exists_first_failure {β : Type} {n : Nat} {f : Fin n → Outcome α β}
    (some : ¬∀ i, ∃ value, f i = .ok value) :
    ∃ i error, f i = .error error ∧ ∀ k < i, ∃ value, f k = .ok value := by
  let failing : Set (Fin n) := fun i => ¬∃ value, f i = .ok value
  obtain ⟨i, failed⟩ := not_forall.mp some
  obtain ⟨first, failed, least⟩ := (measure Fin.val).wf.has_min failing ⟨i, failed⟩
  have earlier (k : Fin n) (before : k < first) : ∃ value, f k = .ok value := by
    by_contra failed
    exact least k failed before
  cases found : f first with
  | ok value => exact absurd ⟨value, found⟩ failed
  | error error => exact ⟨first, error, found, earlier⟩

variable [Scalar α] {rows cols : Nat}

namespace Sheet

/-- What a search of the buffer finds is a cell that is not finite. -/
theorem finite_get_of_search (fits : rows * cols < wordLimit) {m : Sheet α rows cols}
    {i : Fin rows} {j : Fin cols} (found : m.firstNonFinite? = some (i, j)) :
    Scalar.finite (m.get i j) = false := by
  obtain ⟨grid, rfl⟩ := exists_grid fits m
  obtain ⟨position, bad, cell⟩ := Option.map_eq_some_iff.mp found
  obtain ⟨rfl, rfl⟩ := Prod.mk.inj cell
  rw [get_whole, Grid.get_rowOf_colOf]
  simpa using (findFinIdx?_eq_some_iff.mp bad).1

end Sheet

/-- What a search of a view finds is a cell of the reported shape whose value is not finite. -/
theorem View.nonFiniteAt_of_found {v : View α} {i j : Nat}
    (found : v.firstNonFinite? = some (i, j)) :
    (i : Int) < v.rows ∧ (j : Int) < v.cols ∧ v.nonFiniteAt i j = true := by
  unfold firstNonFinite? at found
  simp only [firstFrom_eq_findSome?] at found
  obtain ⟨row, inRows, inner⟩ := List.exists_of_findSome?_eq_some found
  obtain ⟨col, inCols, here⟩ := List.exists_of_findSome?_eq_some inner
  rw [List.mem_range'_1] at inRows inCols
  by_cases bad : v.nonFiniteAt row col = true
  · rw [if_pos bad] at here
    cases here
    exact ⟨by omega, by omega, bad⟩
  · rw [if_neg bad] at here
    cases here

namespace View

variable {v : View α}

omit [Scalar α] in
theorem exists_copy (readable : ∀ (i : Fin rows) (j : Fin cols), ∃ value, v.read i j = .ok value) :
    ∃ grid, v.copy rows cols = .ok grid := by
  choose value read using readable
  refine ⟨Grid.ofFn value, ?_⟩
  unfold copy
  rw [Outcome.bind_eq_ok_iff]
  refine ⟨(Grid.ofFn value).cells, (collect_eq_ok_iff _ _).mpr fun position => ?_, rfl⟩
  rw [read, Reading.outcome_ok, ← Grid.get_rowOf_colOf, Grid.get_ofFn]

omit [Scalar α] in
/-- A copy fails at the first cell, row by row, that cannot be read. -/
theorem copy_eq_error
    (unreadable : ¬∀ (i : Fin rows) (j : Fin cols), ∃ value, v.read i j = .ok value) :
    ∃ (i : Fin rows) (j : Fin cols) (error : Error α), v.copy rows cols = .error error ∧
      (v.read i j).outcome = .error error ∧
      ∀ (i' : Fin rows) (j' : Fin cols), i' < i ∨ i' = i ∧ j' < j →
        ∃ value, v.read i' j' = .ok value := by
  have some : ¬∀ position : Fin (rows * cols), ∃ value,
      (v.read (Grid.rowOf position) (Grid.colOf position)).outcome = .ok value := by
    intro each
    refine unreadable fun i j => ?_
    have cell := each (Grid.offset i j)
    simpa only [Grid.rowOf_offset, Grid.colOf_offset, Reading.outcome_eq_ok_iff] using cell
  obtain ⟨position, error, failed, earlier⟩ := exists_first_failure some
  refine ⟨Grid.rowOf position, Grid.colOf position, error, ?_, failed, fun i' j' before => ?_⟩
  · unfold copy
    rw [collect_eq_error failed earlier]
    rfl
  · rw [← Grid.offset_lt_offset_iff, Grid.offset_rowOf_colOf] at before
    have cell := earlier _ before
    simpa only [Grid.rowOf_offset, Grid.colOf_offset, Reading.outcome_eq_ok_iff] using cell

end View

/-! ## Decisions -/

theorem View.decidedBy_copy {v : View α} (sameRows : v.rows = rows)
    (sameCols : v.cols = cols) : (v.copy rows cols).DecidedBy [.readableCells (.view v)] := by
  have inside (i : Fin rows) (j : Fin cols) : (Operand.view v).Inside i j := by
    refine ⟨?_, ?_⟩
    · rw [show (Operand.view v).rows = rows from sameRows]
      exact Int.ofNat_lt.mpr i.isLt
    · rw [show (Operand.view v).cols = cols from sameCols]
      exact Int.ofNat_lt.mpr j.isLt
  have place {i j : Nat} (reported : (Operand.view v).Inside i j) : i < rows ∧ j < cols := by
    obtain ⟨inRows, inCols⟩ := reported
    rw [show (Operand.view v).rows = rows from sameRows] at inRows
    rw [show (Operand.view v).cols = cols from sameCols] at inCols
    exact ⟨Int.ofNat_lt.mp inRows, Int.ofNat_lt.mp inCols⟩
  by_cases readable : ∀ (i : Fin rows) (j : Fin cols), ∃ value, v.read i j = .ok value
  · obtain ⟨grid, copied⟩ := exists_copy readable
    rw [copied]
    refine .success (List.forall_mem_singleton.mpr fun i j reported => ?_)
    obtain ⟨inRows, inCols⟩ := place reported
    exact readable ⟨i, inRows⟩ ⟨j, inCols⟩
  · obtain ⟨i, j, error, failed, unreadable, earlier⟩ := copy_eq_error readable
    rw [failed]
    have first : (Operand.view v).FirstUnreadable i j error := by
      refine ⟨inside i j, unreadable, fun i' j' before reported => ?_⟩
      obtain ⟨inRows, inCols⟩ := place reported
      exact earlier ⟨i', inRows⟩ ⟨j', inCols⟩
        (before.imp_right fun same => ⟨Fin.ext same.1, same.2⟩)
    refine .refused (fun met => ?_) ⟨i, j, error, first, rfl⟩
    obtain ⟨value, read⟩ := met i j (inside i j)
    rw [show v.read i j = .ok value from read] at unreadable
    cases unreadable

namespace Operand

variable {x : Operand α}

omit [Scalar α] in
theorem decidedBy_checkPresent (x : Operand α) : x.checkPresent.DecidedBy [.given x] := by
  apply Outcome.DecidedBy.of_or
  cases x with
  | absent => exact .inr ⟨nofun, _, rfl, rfl⟩
  | stored s => exact .inl ⟨rfl, _, rfl⟩
  | view v => exact .inl ⟨rfl, _, rfl⟩

omit [Scalar α] in
theorem isAbsent_of_checkPresent (present : x.checkPresent = .ok ()) : x.isAbsent = false := by
  cases x with
  | absent => cases present
  | stored s => rfl
  | view v => rfl

omit [Scalar α] in
theorem decidedBy_checkSquare (x : Operand α) : x.checkSquare.DecidedBy [.square x] := by
  apply Outcome.DecidedBy.of_or
  unfold checkSquare
  by_cases same : x.rows = x.cols
  · exact .inl ⟨same, _, if_pos same⟩
  · exact .inr ⟨same, _, if_neg same, rfl⟩

omit [Scalar α] in
theorem rows_eq_cols_of_checkSquare (squared : x.checkSquare = .ok ()) : x.rows = x.cols := by
  unfold checkSquare at squared
  by_cases same : x.rows = x.cols
  · exact same
  · rw [if_neg same] at squared
    cases squared

section Sheets

variable [MeasuredScalar α]

/-- The finite checks look at the value of every cell. -/
theorem decidedBy_checkFinite (present : x.isAbsent = false)
    (fits : x.rows.toNat * x.cols.toNat < wordLimit) :
    x.checkFinite.DecidedBy [.finiteCells x] := by
  apply Outcome.DecidedBy.of_or
  cases x with
  | absent => cases present
  | stored s =>
      have shows : (stored s).Shows s.sheet := rfl
      have fits : s.rows * s.cols < wordLimit := fits
      cases found : s.sheet.firstNonFinite? with
      | none =>
          refine .inl ⟨fun i j inside => ?_, (), by simp only [checkFinite, found]⟩
          have iInside : i < s.rows := Int.ofNat_lt.mp inside.1
          have jInside : j < s.cols := Int.ofNat_lt.mp inside.2
          rw [show (stored s).read i j = _ from shows.read_eq ⟨i, iInside⟩ ⟨j, jInside⟩]
          exact Sheet.finite_get MeasuredScalar.finite_zero
            (Sheet.allFinite_values_of_search found) _ _
      | some cell =>
          obtain ⟨i, j⟩ := cell
          refine .inr ⟨fun finite => ?_, ⟨[.cell .scan i j], .notFinite⟩,
            by simp only [checkFinite, found], rfl⟩
          have inside : (stored s).Inside i j :=
            ⟨Int.ofNat_lt.mpr i.isLt, Int.ofNat_lt.mpr j.isLt⟩
          have whole := finite i j inside
          rw [shows.read_eq, Reading.value_ok, Sheet.finite_get_of_search fits found] at whole
          cases whole
  | view v =>
      cases found : v.firstNonFinite? with
      | none =>
          refine .inl ⟨fun i j inside => ?_, (), by simp only [checkFinite, found]⟩
          have inRows : (i : Int) < v.rows := inside.1
          have inCols : (j : Int) < v.cols := inside.2
          exact Bool.not_inj (View.nonFiniteAt_of_search found (by omega) (by omega))
      | some cell =>
          obtain ⟨i, j⟩ := cell
          refine .inr ⟨fun finite => ?_, ⟨[.scanned i j], .notFinite⟩,
            by simp only [checkFinite, found], rfl⟩
          obtain ⟨inRows, inCols, bad⟩ := View.nonFiniteAt_of_found found
          have whole : Scalar.finite (v.read i j).value = true := finite i j ⟨inRows, inCols⟩
          rw [View.nonFiniteAt, whole] at bad
          cases bad

/-- Whether an operand that is given is accepted as a sheet is decided by its shape, by the values
of its cells, and then by those that cannot be read. -/
theorem decidedBy_toSheet (present : x.isAbsent = false) (fits : rows * cols < wordLimit) :
    (x.toSheet rows cols).DecidedBy [.shape x rows cols, .finiteCells x, .readableCells x] := by
  by_cases same : x.rows = rows ∧ x.cols = cols
  case neg =>
    have refused : x.toSheet rows cols = .error (x.shapeError rows cols) := by
      cases x with
      | absent => cases present
      | stored s =>
          exact dif_neg fun shape => same ⟨congrArg Nat.cast shape.1, congrArg Nat.cast shape.2⟩
      | view v => exact if_neg same
    rw [refused]
    exact .refused same rfl
  case pos =>
    rw [Outcome.DecidedBy.cons_iff (show (Demand.shape x rows cols).met from same)]
    have searched := decidedBy_checkFinite present (by rw [same.1, same.2]; exact fits)
    unfold toSheet
    cases x with
    | absent => cases present
    | stored s =>
        have shape : s.rows = rows ∧ s.cols = cols :=
          ⟨Int.ofNat_inj.mp same.1, Int.ofNat_inj.mp same.2⟩
        have shows : (stored s).Shows s.sheet := rfl
        have readable : (Demand.readableCells (stored s)).met := fun i j inside =>
          ⟨_, shows.read_eq ⟨i, Int.ofNat_lt.mp inside.1⟩ ⟨j, Int.ofNat_lt.mp inside.2⟩⟩
        dsimp only
        rw [dif_pos shape]
        exact searched.bind fun _ _ => .success (List.forall_mem_singleton.mpr readable)
    | view v =>
        have shape : v.rows = rows ∧ v.cols = cols := same
        dsimp only
        rw [if_pos shape]
        exact searched.bind fun _ _ => (View.decidedBy_copy same.1 same.2).bind_pure

theorem decidedBy_toGrid (present : x.isAbsent = false) (fits : rows * cols < wordLimit) :
    (x.toGrid rows cols).DecidedBy [.shape x rows cols, .finiteCells x, .readableCells x] :=
  (decidedBy_toSheet present fits).bind_pure

end Sheets

end Operand

theorem decidedBy_checkFiniteVector (values : Array α) :
    (checkFiniteVector values).DecidedBy [.finiteEntries (some values)] := by
  apply Outcome.DecidedBy.of_or
  by_cases finite : AllFinite values
  · refine .inl ⟨?_, (), checkFiniteVector_eq_ok_iff.mpr finite⟩
    rintro _ ⟨⟩
    exact finite
  · refine .inr ⟨fun each => finite (each values rfl), ?_⟩
    cases first : values.findIdx? fun value => !Scalar.finite value with
    | some position => exact ⟨_, checkFiniteVector_eq_error first, rfl⟩
    | none =>
        rw [Array.findIdx?_eq_none_iff] at first
        exact absurd (fun value isEntry => by simpa using first value isEntry) finite

/-- Whether a vector is accepted is decided by whether it is given, by its length and by its
entries. -/
theorem Given.decidedBy_ofFinite (x : Given α) (n : Nat) :
    (x.ofFinite n).DecidedBy [.givenVector x, .length x n, .finiteEntries x] := by
  cases x with
  | none => exact .refused nofun rfl
  | some values =>
      have given : (Demand.givenVector (some values)).met := rfl
      rw [Outcome.DecidedBy.cons_iff given]
      by_cases same : (values.size : Int) = n
      case neg =>
        have refused : Given.ofFinite (some values) n =
            .error ⟨[.lengths values.size n, .check .length], .shapeMismatch⟩ := by
          unfold Given.ofFinite Given.ofLength
          dsimp only
          rw [dif_neg same]
          rfl
        rw [refused]
        exact .refused same rfl
      case pos =>
        rw [Outcome.DecidedBy.cons_iff (show (Demand.length (some values) n).met from same)]
        have found : Given.ofLength (some values) n = .ok ⟨values, by omega⟩ := dif_pos same
        unfold Given.ofFinite
        rw [found, Outcome.within_ok, Outcome.ok_bind]
        exact (decidedBy_checkFiniteVector values).bind_pure

end EchoState
