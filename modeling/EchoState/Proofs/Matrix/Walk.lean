import EchoState.Matrix.Basic
import EchoState.Scalar.Float
import Mathlib.Data.List.FinRange
import Mathlib.Order.WellFounded

/-!
# Walks over the cells

A walk meets the cells of a matrix by rows and those of a row from left to right, which is the order
of the buffer. A visitor sees the cells up to the first one at which it stops. A replacement in
place changes the cells before the first one whose new value is refused, and no others: the walk
meets no cell twice, so what it has stored is not read again.
-/

namespace EchoState

variable {α : Type} {rows cols : Nat}

/-! ## The order of the cells -/

namespace Grid

theorem get_rowOf_colOf (m : Grid α rows cols) (position : Fin (rows * cols)) :
    m.get (rowOf position) (colOf position) = m.cells.get position :=
  congrArg m.cells.get (offset_rowOf_colOf position)

theorem offset_lt_of_row_lt {i i' : Fin rows} (above : i' < i) (j j' : Fin cols) :
    offset i' j' < offset i j := by
  have rowsAbove : (i'.val + 1) * cols ≤ i.val * cols := Nat.mul_le_mul_right cols above
  rw [Nat.succ_mul] at rowsAbove
  show i'.val * cols + j'.val < i.val * cols + j.val
  omega

theorem offset_lt_offset_iff {i i' : Fin rows} {j j' : Fin cols} :
    offset i' j' < offset i j ↔ i' < i ∨ i' = i ∧ j' < j := by
  rcases Nat.lt_trichotomy i'.val i.val with above | same | below
  · exact ⟨fun _ => .inl above, fun _ => offset_lt_of_row_lt above j j'⟩
  · obtain rfl : i' = i := Fin.ext same
    have sameRow : offset i' j' < offset i' j ↔ j' < j := Nat.add_lt_add_iff_left
    simp [sameRow]
  · have later := offset_lt_of_row_lt below j' j
    have notBefore : ¬(i' < i ∨ i' = i ∧ j' < j) := by omega
    exact ⟨fun before => absurd before (Fin.lt_asymm later), fun before => absurd before notBefore⟩

/-- The cell fails a test that every cell before it in row-major order passes. -/
def FirstFailure (passes : Fin rows → Fin cols → Bool) (i : Fin rows) (j : Fin cols) : Prop :=
  passes i j = false ∧ ∀ i' j', i' < i ∨ i' = i ∧ j' < j → passes i' j' = true

section FirstFailure

variable {passes : Fin rows → Fin cols → Bool} {i i' : Fin rows} {j j' : Fin cols}

theorem FirstFailure.unique (first : FirstFailure passes i j) (first' : FirstFailure passes i' j') :
    i = i' ∧ j = j' := by
  have notBefore : ¬offset i' j' < offset i j := fun before =>
    Bool.false_ne_true (first'.1.symm.trans (first.2 i' j' (offset_lt_offset_iff.mp before)))
  have notAfter : ¬offset i j < offset i' j' := fun after =>
    Bool.false_ne_true (first.1.symm.trans (first'.2 i j (offset_lt_offset_iff.mp after)))
  exact offset_inj.mp (Fin.le_antisymm (Fin.not_lt.mp notBefore) (Fin.not_lt.mp notAfter))

theorem exists_firstFailure (some : ∃ i j, passes i j = false) :
    ∃ i j, FirstFailure passes i j := by
  obtain ⟨i, j, fails⟩ := some
  let failing : Set (Fin (rows * cols)) :=
    fun position => passes (rowOf position) (colOf position) = false
  have failing_offset (i : Fin rows) (j : Fin cols) :
      offset i j ∈ failing ↔ passes i j = false := by
    show passes (rowOf (offset i j)) _ = false ↔ _
    rw [rowOf_offset, colOf_offset]
  obtain ⟨first, fails, least⟩ :=
    (measure Fin.val).wf.has_min failing ⟨_, (failing_offset i j).mpr fails⟩
  refine ⟨rowOf first, colOf first, fails, fun i' j' before => ?_⟩
  have earlier := offset_lt_offset_iff.mpr before
  rw [offset_rowOf_colOf] at earlier
  by_contra failing'
  rw [Bool.not_eq_true] at failing'
  exact least _ ((failing_offset i' j').mpr failing') earlier

end FirstFailure

theorem positions_eq_ofFn (rows cols : Nat) : positions rows cols =
    List.ofFn fun position : Fin (rows * cols) => (rowOf position, colOf position) := by
  have cell (i : Fin rows) (j : Fin cols) :
      ((i, j) : Fin rows × Fin cols) = (rowOf (offset i j), colOf (offset i j)) := by
    rw [rowOf_offset, colOf_offset]
  rw [List.ofFn_mul, positions, List.flatMap_def, List.ofFn_eq_map]
  refine congrArg List.flatten (List.map_congr_left fun i _ => ?_)
  rw [List.ofFn_eq_map]
  exact List.map_congr_left fun j _ => cell i j

/-- What comes before a cell on a walk are the cells of the rows above it and, in its own row, those
to its left. -/
theorem mem_before_iff {before after : List (Fin rows × Fin cols)} {i i' : Fin rows}
    {j j' : Fin cols} (walk : positions rows cols = before ++ (i, j) :: after) :
    (i', j') ∈ before ↔ i' < i ∨ i' = i ∧ j' < j := by
  have ordered := positions_pairwise rows cols
  rw [walk, List.pairwise_append, List.pairwise_cons] at ordered
  obtain ⟨-, ⟨onward, -⟩, across⟩ := ordered
  constructor
  · exact fun earlier => across _ earlier _ (List.mem_cons_self ..)
  · intro precedes
    have listed := mem_positions i' j'
    rw [walk, List.mem_append, List.mem_cons, Prod.mk.injEq] at listed
    rcases listed with earlier | ⟨rfl, rfl⟩ | later
    · exact earlier
    · omega
    · have follows : i < i' ∨ i = i' ∧ j < j' := onward _ later
      omega

theorem nodup_positions (rows cols : Nat) : (positions rows cols).Nodup := by
  refine (positions_pairwise rows cols).imp ?_
  rintro place place' before rfl
  omega

/-- A walk up to a cell: what is met before the cell is as much as the buffer keeps before it. -/
theorem exists_walk (i : Fin rows) (j : Fin cols) : ∃ before after,
    positions rows cols = before ++ (i, j) :: after ∧ before.length = (offset i j).val ∧
      ∀ i' j', (i', j') ∈ before ↔ i' < i ∨ i' = i ∧ j' < j := by
  have inside : (offset i j).val < (positions rows cols).length := by
    rw [positions_eq_ofFn, List.length_ofFn]
    exact (offset i j).isLt
  have here : (positions rows cols)[(offset i j).val] = (i, j) := by
    simp only [positions_eq_ofFn, List.getElem_ofFn, Fin.eta, rowOf_offset, colOf_offset]
  have walk : positions rows cols = (positions rows cols).take (offset i j) ++
      (i, j) :: (positions rows cols).drop ((offset i j).val + 1) := by
    rw [← here, ← List.drop_eq_getElem_cons inside, List.take_append_drop]
  exact ⟨_, _, walk, List.length_take_of_le (Nat.le_of_lt inside), fun i' j' => mem_before_iff walk⟩

end Grid

namespace Sheet

theorem positions_of_fits (fits : rows * cols < wordLimit) (m : Sheet α rows cols) :
    m.positions = Grid.positions rows cols := by
  obtain ⟨grid, rfl⟩ := exists_grid fits m
  rfl

variable [Scalar α]

/-! ## Visits -/

section Visits

variable (m : Sheet α rows cols) (goOn : Fin rows → Fin cols → α → Bool)

/-- A visitor goes on through the places at which it wants to. -/
theorem visitOver_append {places : List (Fin rows × Fin cols)}
    (wanted : ∀ place ∈ places, goOn place.1 place.2 (m.get place.1 place.2) = true)
    (rest : List (Fin rows × Fin cols)) :
    m.visitOver goOn (places ++ rest) =
      places.map (fun place => (place.1, place.2, m.get place.1 place.2)) ++
        m.visitOver goOn rest := by
  induction places with
  | nil => rfl
  | cons place others ih =>
      rw [List.forall_mem_cons] at wanted
      rw [List.cons_append, visitOver, if_pos wanted.1, ih wanted.2]
      rfl

end Visits

/-! ## Replacements in place -/

/-- The cells before the given one hold their new values, and it and the later ones are as they
were. -/
structure ReplacedBefore (new : Fin rows → Fin cols → α) (i : Fin rows) (j : Fin cols)
    (m next : Sheet α rows cols) : Prop where
  earlier : ∀ i' j', i' < i ∨ i' = i ∧ j' < j → next.get i' j' = new i' j'
  kept : ∀ i' j', ¬(i' < i ∨ i' = i ∧ j' < j) → next.get i' j' = m.get i' j'

section Replacements

variable {f : Fin rows → Fin cols → α → α} {new : Fin rows → Fin cols → α}

/-- Finite new values of distinct places are stored one after the other. -/
theorem applyOver_append {places : List (Fin rows × Fin cols)} (distinct : places.Nodup)
    {m : Grid α rows cols}
    (computed : ∀ place ∈ places, f place.1 place.2 (m.get place.1 place.2) = new place.1 place.2)
    (finite : ∀ place ∈ places, Scalar.finite (new place.1 place.2) = true)
    (rest : List (Fin rows × Fin cols)) :
    applyOver f (places ++ rest) (.whole m) = applyOver f rest
      (.whole (places.foldl (fun m place => m.set place.1 place.2 (new place.1 place.2)) m)) := by
  induction places generalizing m with
  | nil => rfl
  | cons place others ih =>
      rw [List.nodup_cons] at distinct
      rw [List.forall_mem_cons] at computed finite
      -- what has just been stored is not read again
      have untouched : ∀ other ∈ others, f other.1 other.2
          ((m.set place.1 place.2 (new place.1 place.2)).get other.1 other.2) =
            new other.1 other.2 := by
        intro other listed
        have elsewhere : ¬(place.1 = other.1 ∧ place.2 = other.2) := fun same =>
          distinct.1 (Prod.ext same.1 same.2 ▸ listed)
        rw [Grid.get_set, if_neg elsewhere]
        exact computed.2 other listed
      rw [List.cons_append, applyOver, get_whole, computed.1, if_pos finite.1, set_whole]
      exact ih distinct.2 untouched finite.2

variable {m : Sheet α rows cols} (fits : rows * cols < wordLimit)
  (computed : ∀ i j, f i j (m.get i j) = new i j)

include fits computed

theorem apply_of_finite (finite : ∀ i j, Scalar.finite (new i j) = true) :
    ∃ next : Sheet α rows cols, m.apply f = (.ok (), next) ∧ ∀ i j, next.get i j = new i j := by
  obtain ⟨grid, rfl⟩ := exists_grid fits m
  have all := applyOver_append (Grid.nodup_positions rows cols) (fun place _ => computed _ _)
    (fun place _ => finite _ _) []
  rw [List.append_nil] at all
  exact ⟨_, all, fun i j => (Grid.get_foldl_set new _ grid i j).1 (Grid.mem_positions i j)⟩

/-- A replacement ends at the first value that is refused. -/
theorem apply_of_firstFailure {i : Fin rows} {j : Fin cols}
    (first : Grid.FirstFailure (fun i j => Scalar.finite (new i j)) i j) :
    ∃ next : Sheet α rows cols, m.apply f = (.error ⟨[.cell .apply i j], .notFinite⟩, next) ∧
      ReplacedBefore new i j m next := by
  obtain ⟨grid, rfl⟩ := exists_grid fits m
  obtain ⟨before, after, walk, -, earlier⟩ := Grid.exists_walk i j
  have distinct := Grid.nodup_positions rows cols
  rw [walk, List.nodup_append] at distinct
  have stored := applyOver_append distinct.1 (m := grid) (fun place _ => computed _ _)
    (fun place listed => first.2 _ _ ((earlier _ _).mp listed)) ((i, j) :: after)
  have held (i' : Fin rows) (j' : Fin cols) := Grid.get_foldl_set new before grid i' j'
  have notYet : (i, j) ∉ before := fun listed =>
    (distinct.2.2 _ listed _ (List.mem_cons_self ..)) rfl
  have here : f i j ((before.foldl (fun m place => m.set place.1 place.2 (new place.1 place.2))
      grid).get i j) = new i j := by
    rw [(held i j).2 notYet]
    exact computed i j
  refine ⟨.whole (before.foldl (fun m place => m.set place.1 place.2 (new place.1 place.2)) grid),
    ?stopped, fun i' j' precedes => ?earlier, fun i' j' follows => ?kept⟩
  case stopped =>
    have refused : Scalar.finite (new i j) = false := first.1
    rw [apply, positions, walk, stored, applyOver, get_whole, here, refused]
    rfl
  case earlier => exact (held i' j').1 ((earlier i' j').mpr precedes)
  case kept => exact (held i' j').2 fun listed => follows ((earlier i' j').mp listed)

end Replacements

end Sheet

/-! ## Matrices -/

namespace Matrix

variable [Scalar α]

section Entries

variable (m : Matrix α)

def entries : List (Nat × Nat × α) :=
  List.ofFn fun position : Fin (m.rows * m.cols) =>
    (position / m.cols, position % m.cols, m.sheet.get (Grid.rowOf position) (Grid.colOf position))

theorem entries_eq_map : m.entries = (Grid.positions m.rows m.cols).map fun place =>
    (place.1.val, place.2.val, m.sheet.get place.1 place.2) := by
  rw [Grid.positions_eq_ofFn, List.map_ofFn]
  rfl

variable {m} (fits : m.rows * m.cols < wordLimit) {goOn : Nat → Nat → α → Bool}

include fits

theorem visit_of_all (wanted : ∀ i j, goOn i.val j.val (m.sheet.get i j) = true) :
    m.visit goOn = m.entries := by
  have all := m.sheet.visitOver_append (fun i j => goOn i j)
    (fun place (_ : place ∈ Grid.positions m.rows m.cols) => wanted _ _) []
  rw [List.append_nil] at all
  rw [visit, Sheet.visit, Sheet.positions_of_fits fits, all, entries_eq_map, Sheet.visitOver,
    List.append_nil, List.map_map]
  rfl

/-- A visitor that stops sees the entries up to the first cell at which it does, and that one. -/
theorem visit_of_firstFailure {i : Fin m.rows} {j : Fin m.cols}
    (first : Grid.FirstFailure (fun i j => goOn i.val j.val (m.sheet.get i j)) i j) :
    m.visit goOn = m.entries.take (i * m.cols + j + 1) := by
  obtain ⟨before, after, walk, length, earlier⟩ := Grid.exists_walk i j
  have seen := m.sheet.visitOver_append (fun i j => goOn i j)
    (fun place (listed : place ∈ before) => first.2 _ _ ((earlier _ _).mp listed)) ((i, j) :: after)
  have taken : (before ++ (i, j) :: after).take (i * m.cols + j + 1) = before ++ [(i, j)] := by
    have count : i * m.cols + j + 1 = before.length + 1 := congrArg (· + 1) length.symm
    rw [count, List.take_length_add_append]
    rfl
  have stops : goOn i j (m.sheet.get i j) = false := first.1
  rw [visit, Sheet.visit, Sheet.positions_of_fits fits, walk, seen, entries_eq_map, walk,
    ← List.map_take, taken, Sheet.visitOver, stops]
  simp

end Entries

/-- A matrix whose callback gives a finite value for each cell holds these values afterwards.
Otherwise the replacement fails at the first cell, row by row, whose new value is not finite, and
has changed the cells before it and no others. A visitor sees the cells in the same order with the
values they have, all of them or up to and including the first one at which it stops. Only the
number of cells must be one that positions can count, as it is for every buffer. -/
theorem walks_end_at_first_failure (m : Matrix α) (fits : m.rows * m.cols < wordLimit) :
    (∀ f : Nat → Nat → α → α,
      let new (i : Fin m.rows) (j : Fin m.cols) : α := f i j (m.sheet.get i j)
      ((∀ i j, Scalar.finite (new i j) = true) → ∃ next : Sheet α m.rows m.cols,
        m.apply f = (.ok (), ⟨m.rows, m.cols, next⟩) ∧ ∀ i j, next.get i j = new i j) ∧
      ((∃ i j, Scalar.finite (new i j) = false) → ∃ i j,
        Grid.FirstFailure (fun i j => Scalar.finite (new i j)) i j ∧
        ∃ next : Sheet α m.rows m.cols,
          m.apply f = (.error ⟨[.cell .apply i j], .notFinite⟩, ⟨m.rows, m.cols, next⟩) ∧
            m.sheet.ReplacedBefore new i j next)) ∧
    ∀ goOn : Nat → Nat → α → Bool,
      let wanted (i : Fin m.rows) (j : Fin m.cols) : Bool := goOn i j (m.sheet.get i j)
      ((∀ i j, wanted i j = true) → m.visit goOn = m.entries) ∧
      ((∃ i j, wanted i j = false) → ∃ i j, Grid.FirstFailure wanted i j ∧
        m.visit goOn = m.entries.take (i * m.cols + j + 1)) := by
  refine ⟨fun f => ⟨fun finite => ?_, fun some => ?_⟩,
    fun goOn => ⟨visit_of_all fits, fun some => ?_⟩⟩
  · obtain ⟨next, applied, cells⟩ := Sheet.apply_of_finite (m := m.sheet) fits
      (f := fun i j => f i j) (fun _ _ => rfl) finite
    refine ⟨next, ?_, cells⟩
    rw [apply, applied]
  · obtain ⟨i, j, first⟩ := Grid.exists_firstFailure some
    obtain ⟨next, applied, replaced⟩ := Sheet.apply_of_firstFailure (m := m.sheet) fits
      (f := fun i j => f i j) (fun _ _ => rfl) first
    refine ⟨i, j, first, next, ?_, replaced⟩
    rw [apply, applied]
  · obtain ⟨i, j, first⟩ := Grid.exists_firstFailure some
    exact ⟨i, j, first, visit_of_firstFailure fits first⟩

/-- A division in binary64 that meets a zero at the start of the second row, and a visitor that
stops at the second cell. -/
theorem walks_end_at_first_failure_binary64 :
    let m : Matrix Float := ⟨2, 2, .whole ⟨#v[2, 4, -0, 8]⟩⟩
    m.rows * m.cols < wordLimit ∧
      (∃ next : Sheet Float 2 2, (m.apply fun _ _ value => 8 / value) =
          (.error ⟨[.cell .apply 1 0], .notFinite⟩, ⟨2, 2, next⟩) ∧
        next.get 0 0 = 8 / 2 ∧ next.get 0 1 = 8 / 4 ∧ next.get 1 0 = -0 ∧ next.get 1 1 = 8) ∧
      (m.visit fun _ _ value => Scalar.lt value 3) = [(0, 0, 2), (0, 1, 4)] := by
  intro m
  have fits : m.rows * m.cols < wordLimit := by decide
  obtain ⟨replacements, visits⟩ := walks_end_at_first_failure m fits
  have refused : Grid.FirstFailure (fun i j => Scalar.finite (8 / m.sheet.get i j)) 1 0 := by
    unfold Grid.FirstFailure
    with_unfolding_all decide
  have stopped : Grid.FirstFailure (fun i j => Scalar.lt (m.sheet.get i j) 3) 0 1 := by
    unfold Grid.FirstFailure
    with_unfolding_all decide
  refine ⟨fits, ?_, ?_⟩
  · obtain ⟨i, j, first, next, applied, replaced⟩ :=
      (replacements fun _ _ value => 8 / value).2 ⟨1, 0, refused.1⟩
    obtain ⟨rfl, rfl⟩ := first.unique refused
    refine ⟨next, applied, ?_, ?_, ?_, ?_⟩
    · exact replaced.earlier 0 0 (by decide)
    · exact replaced.earlier 0 1 (by decide)
    · exact replaced.kept 1 0 (by decide)
    · exact replaced.kept 1 1 (by decide)
  · obtain ⟨i, j, first, seen⟩ := (visits fun _ _ value => Scalar.lt value 3).2 ⟨0, 1, stopped.1⟩
    obtain ⟨rfl, rfl⟩ := first.unique stopped
    exact seen.trans (by with_unfolding_all rfl)

end Matrix

end EchoState
