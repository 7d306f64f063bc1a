import EchoState.Matrix.Operand
import EchoState.Proofs.Control
import EchoState.Proofs.Scalar.Order

/-!
# What the checks of operands let through

The checks that stand between callers and typed vectors and matrices accept finite entries only. A
view is searched before it is copied, and the copy reads the same cells again, so what was searched
is what is kept.
-/

namespace EchoState

theorem Sheet.values_cast {α : Type} {rows cols rows' cols' : Nat} (sameRows : rows = rows')
    (sameCols : cols = cols') (m : Sheet α rows cols) :
    (m.cast sameRows sameCols).values = m.values := by
  subst sameRows sameCols
  rw [cast_rfl]

theorem Sheet.size_values {α : Type} {rows cols : Nat} (fits : rows * cols < wordLimit)
    (m : Sheet α rows cols) : m.values.size = rows * cols := by
  obtain ⟨grid, rfl⟩ := exists_grid fits m
  exact Vector.size_toArray _

theorem Matrix.dimensions_natCast {α : Type} (rows cols : Nat) :
    (dimensions rows cols : Outcome α (Nat × Nat)) = .ok (rows, cols) := by
  unfold dimensions
  rw [if_neg (by omega)]
  rfl

/-- A copy holds the value of each cell, all of which can be read. -/
theorem View.read_of_copy_eq_ok {α : Type} {v : View α} {rows cols : Nat} {grid : Grid α rows cols}
    (copied : v.copy rows cols = .ok grid) (i : Fin rows) (j : Fin cols) :
    v.read i j = .ok (grid.get i j) := by
  unfold View.copy at copied
  simp only [Outcome.bind_eq_ok_iff, Outcome.pure_eq_ok_iff] at copied
  obtain ⟨cells, read, rfl⟩ := copied
  have each := (collect_eq_ok_iff _ cells).mp read (Grid.offset i j)
  rw [Grid.rowOf_offset, Grid.colOf_offset] at each
  exact Reading.outcome_eq_ok_iff.mp each

theorem findFinIdx?_eq_some_iff {α : Type} {n : Nat} {v : Vector α n} {test : α → Bool}
    {i : Fin n} :
    v.findFinIdx? test = some i ↔ test (v.get i) = true ∧ ∀ j < i, test (v.get j) = false := by
  obtain ⟨values, rfl⟩ := v
  simp [Vector.findFinIdx?, Array.findFinIdx?_eq_some_iff, Vector.get]

theorem Given.ofLength_eq_ok_iff {α : Type} {x : Given α} {n : Nat} {v : Vector α n} :
    x.ofLength n = .ok v ↔ x = some v.toArray := by
  cases x with
  | none => simp [Given.ofLength]
  | some values =>
      unfold Given.ofLength
      dsimp only
      by_cases same : (values.size : Int) = n
      · rw [dif_pos same, Except.ok.injEq, Option.some.injEq]
        constructor
        · rintro rfl
          rfl
        · rintro rfl
          rfl
      · rw [dif_neg same]
        constructor
        · intro accepted
          cases accepted
        · intro given
          have size : values.size = n := by rw [Option.some.inj given, Vector.size_toArray]
          exact absurd (congrArg Nat.cast size) same

theorem Given.ofLength_toArray {α : Type} {n : Nat} (v : Vector α n) :
    Given.ofLength (some v.toArray) n = .ok v :=
  Given.ofLength_eq_ok_iff.mpr rfl

variable {α : Type} [Scalar α]

def AllFinite (values : Array α) : Prop :=
  ∀ value ∈ values, Scalar.finite value = true

instance (values : Array α) : Decidable (AllFinite values) :=
  inferInstanceAs (Decidable (∀ value ∈ values, Scalar.finite value = true))

theorem allFinite_replicate (n : Nat) {value : α} (finite : Scalar.finite value = true) :
    AllFinite (Array.replicate n value) := by
  intro entry isEntry
  rw [(Array.mem_replicate.mp isEntry).2]
  exact finite

theorem allFinite_vector_iff {n : Nat} (v : Vector α n) :
    AllFinite v.toArray ↔ ∀ i : Fin n, Scalar.finite (v.get i) = true := by
  constructor
  · intro all i
    exact all (v.get i) ((Vector.mem_toArray_iff _ v).mpr (Vector.getElem_mem i.isLt))
  · intro each value isEntry
    obtain ⟨i, inside, same⟩ := Vector.mem_iff_getElem.mp ((Vector.mem_toArray_iff _ v).mp isEntry)
    rw [← same]
    exact each ⟨i, inside⟩

theorem checkFiniteVector_eq_ok_iff {values : Array α} :
    checkFiniteVector values = .ok () ↔ AllFinite values := by
  unfold checkFiniteVector AllFinite
  cases found : values.findIdx? fun value => !Scalar.finite value with
  | none =>
      rw [Array.findIdx?_eq_none_iff] at found
      simpa using found
  | some position =>
      have bad : ¬∀ value ∈ values, (!Scalar.finite value) = false := by
        rw [← Array.findIdx?_eq_none_iff, found]
        simp
      simpa using bad

/-- A check names the first entry that is not finite. -/
theorem checkFiniteVector_eq_error {values : Array α} {i : Nat}
    (first : values.findIdx? (fun value => !Scalar.finite value) = some i) :
    checkFiniteVector values = .error ⟨[.check .finiteVector, .index i], .notFinite⟩ := by
  unfold checkFiniteVector
  rw [first]

theorem Given.ofFinite_eq_ok_iff {x : Given α} {n : Nat} {v : Vector α n} :
    x.ofFinite n = .ok v ↔ x = some v.toArray ∧ AllFinite v.toArray := by
  unfold Given.ofFinite
  simp only [Outcome.bind_eq_ok_iff, Outcome.within_eq_ok_iff, Outcome.pure_eq_ok_iff]
  constructor
  · rintro ⟨values, given, ⟨⟩, finite, rfl⟩
    exact ⟨Given.ofLength_eq_ok_iff.mp given, checkFiniteVector_eq_ok_iff.mp finite⟩
  · rintro ⟨given, finite⟩
    exact ⟨v, Given.ofLength_eq_ok_iff.mpr given, (), checkFiniteVector_eq_ok_iff.mpr finite, rfl⟩

theorem allFinite_of_findFinIdx?_eq_none {n : Nat} {v : Vector α n}
    (none : (v.findFinIdx? fun value => !Scalar.finite value) = none) : AllFinite v.toArray := by
  rw [Vector.findFinIdx?_eq_none_iff] at none
  intro value isEntry
  have notBad := none value ((Vector.mem_toArray_iff _ v).mp isEntry)
  simpa using notBad

theorem Grid.allFinite_cells_iff {rows cols : Nat} (m : Grid α rows cols) :
    AllFinite m.cells.toArray ↔ ∀ i j, Scalar.finite (m.get i j) = true := by
  rw [allFinite_vector_iff]
  constructor
  · intro each i j
    exact each (Grid.offset i j)
  · rintro each ⟨position, inside⟩
    have cell := each (Grid.rowOf ⟨position, inside⟩) (Grid.colOf ⟨position, inside⟩)
    simpa [Grid.get] using cell

namespace Sheet

variable {rows cols : Nat}

theorem allFinite_values_of_search {m : Sheet α rows cols} (none : m.firstNonFinite? = none) :
    AllFinite m.values := by
  cases m with
  | whole grid => exact allFinite_of_findFinIdx?_eq_none (Option.map_eq_none_iff.mp none)
  | folded buffer tooMany => exact allFinite_of_findFinIdx?_eq_none (Option.map_eq_none_iff.mp none)

theorem finite_get (zeroFinite : Scalar.finite (0 : α) = true) {m : Sheet α rows cols}
    (all : AllFinite m.values) (i : Fin rows) (j : Fin cols) :
    Scalar.finite (m.get i j) = true := by
  cases m with
  | whole grid => exact grid.allFinite_cells_iff.mp all i j
  | folded buffer tooMany =>
      unfold get
      dsimp only
      cases position? i j with
      | none => exact zeroFinite
      | some position => exact (allFinite_vector_iff buffer).mp all position

theorem allFinite_toGrid (zeroFinite : Scalar.finite (0 : α) = true) {m : Sheet α rows cols}
    (all : AllFinite m.values) : AllFinite m.toGrid.cells.toArray := by
  rw [Grid.allFinite_cells_iff]
  intro i j
  rw [get_toGrid]
  exact finite_get zeroFinite all i j

theorem allFinite_zero (zeroFinite : Scalar.finite (0 : α) = true) :
    AllFinite (zero : Sheet α rows cols).values := by
  unfold zero ofBuffer
  split
  · exact allFinite_replicate _ zeroFinite
  · exact allFinite_replicate _ zeroFinite

end Sheet

namespace View

theorem nonFiniteAt_of_search {v : View α} (none : v.firstNonFinite? = none) {i j : Nat}
    (iInside : i < v.rows.toNat) (jInside : j < v.cols.toNat) : v.nonFiniteAt i j = false := by
  unfold firstNonFinite? at none
  simp only [firstFrom_eq_findSome?, List.findSome?_eq_none_iff, List.mem_range'_1] at none
  have here := none i ⟨Nat.zero_le i, by omega⟩ j ⟨Nat.zero_le j, by omega⟩
  simpa using here

/-- What was searched without a find and then copied is finite. -/
theorem allFinite_of_copy {v : View α} {rows cols : Nat} {grid : Grid α rows cols}
    (none : v.firstNonFinite? = none) (copied : v.copy rows cols = .ok grid)
    (sameRows : v.rows = rows) (sameCols : v.cols = cols) : AllFinite grid.cells.toArray := by
  rw [Grid.allFinite_cells_iff]
  intro i j
  have iInside : i.val < v.rows.toNat := by
    rw [sameRows]
    exact i.isLt
  have jInside : j.val < v.cols.toNat := by
    rw [sameCols]
    exact j.isLt
  have notBad := nonFiniteAt_of_search none iInside jInside
  unfold nonFiniteAt at notBad
  rw [read_of_copy_eq_ok copied i j] at notBad
  simpa using notBad

end View

namespace Operand

variable {rows cols : Nat}

theorem allFinite_of_toSheet {m : Operand α} {sheet : Sheet α rows cols}
    (accepted : m.toSheet rows cols = .ok sheet) : AllFinite sheet.values := by
  unfold toSheet at accepted
  cases m with
  | absent => cases accepted
  | stored s =>
      by_cases same : s.rows = rows ∧ s.cols = cols
      · simp only [dif_pos same, Outcome.bind_eq_ok_iff, Outcome.pure_eq_ok_iff] at accepted
        obtain ⟨⟨⟩, finite, rfl⟩ := accepted
        unfold checkFinite at finite
        rw [Sheet.values_cast]
        cases found : s.sheet.firstNonFinite? with
        | none => exact Sheet.allFinite_values_of_search found
        | some cell =>
            simp only [found] at finite
            cases finite
      · simp only [dif_neg same] at accepted
        cases accepted
  | view v =>
      by_cases same : v.rows = rows ∧ v.cols = cols
      · simp only [if_pos same, Outcome.bind_eq_ok_iff, Outcome.pure_eq_ok_iff] at accepted
        obtain ⟨⟨⟩, finite, grid, copied, rfl⟩ := accepted
        unfold checkFinite at finite
        cases found : v.firstNonFinite? with
        | none => exact View.allFinite_of_copy found copied same.1 same.2
        | some cell =>
            simp only [found] at finite
            cases finite
      · simp only [if_neg same] at accepted
        cases accepted

theorem allFinite_of_toGrid (zeroFinite : Scalar.finite (0 : α) = true) {m : Operand α}
    {grid : Grid α rows cols} (accepted : m.toGrid rows cols = .ok grid) :
    AllFinite grid.cells.toArray := by
  unfold toGrid at accepted
  simp only [Outcome.bind_eq_ok_iff, Outcome.pure_eq_ok_iff] at accepted
  obtain ⟨sheet, kept, rfl⟩ := accepted
  exact Sheet.allFinite_toGrid zeroFinite (allFinite_of_toSheet kept)

end Operand

end EchoState
