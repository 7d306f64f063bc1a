import EchoState.Proofs.Matrix.Selector
import EchoState.Proofs.Matrix.Walk

/-!
# Matrices in registers

Matrices that constructors have made lie in registers, where cells are set, all cells of a matrix
are replaced in place and copies go from one register to another. Whatever is done, and whether it
succeeds or not, a matrix keeps the shape it was made with, its buffer has one finite value for each
cell, and a cell is read, on its own or with its row, from the position at which it was stored.
-/

namespace EchoState

variable {α ρ : Type} {rows cols : Nat}

namespace Sheet

variable [Scalar α] (fits : rows * cols < wordLimit)

include fits

theorem get_set (m : Sheet α rows cols) (i i' : Fin rows) (j j' : Fin cols) (value : α) :
    (m.set i j value).get i' j' = if i = i' ∧ j = j' then value else m.get i' j' := by
  obtain ⟨grid, rfl⟩ := exists_grid fits m
  exact grid.get_set i i' j j' value

theorem allFinite_values_iff (m : Sheet α rows cols) :
    AllFinite m.values ↔ ∀ i j, Scalar.finite (m.get i j) = true := by
  obtain ⟨grid, rfl⟩ := exists_grid fits m
  exact grid.allFinite_cells_iff

/-- A replacement stores finite values only, also where it fails on its way. -/
theorem finite_get_apply {m : Sheet α rows cols} {f : Fin rows → Fin cols → α → α}
    (cells : ∀ i j, Scalar.finite (m.get i j) = true) (i : Fin rows) (j : Fin cols) :
    Scalar.finite ((m.apply f).2.get i j) = true := by
  by_cases some : ∃ i j, Scalar.finite (f i j (m.get i j)) = false
  · obtain ⟨i', j', first⟩ := Grid.exists_firstFailure some
    obtain ⟨next, applied, replaced⟩ := apply_of_firstFailure fits (fun _ _ => rfl) first
    rw [applied]
    by_cases before : i < i' ∨ i = i' ∧ j < j'
    · rw [replaced.earlier i j before]
      exact first.2 i j before
    · rw [replaced.kept i j before]
      exact cells i j
  · have finite : ∀ i j, Scalar.finite (f i j (m.get i j)) = true := by simpa using some
    obtain ⟨next, applied, replaced⟩ := apply_of_finite fits (fun _ _ => rfl) finite
    rw [applied, replaced]
    exact finite i j

end Sheet

namespace Matrix

/-! ## Cells -/

def Inside (m : Matrix α) (i j : Int) : Prop :=
  (0 ≤ i ∧ i < m.rows) ∧ (0 ≤ j ∧ j < m.cols)

theorem inside_iff {m : Matrix α} {i j : Int} :
    m.Inside i j ↔ ∃ (row : Fin m.rows) (col : Fin m.cols), i = row ∧ j = col := by
  constructor
  · rintro ⟨⟨top, bottom⟩, left, right⟩
    exact ⟨⟨i.toNat, by omega⟩, ⟨j.toNat, by omega⟩, by simp [top], by simp [left]⟩
  · rintro ⟨row, col, rfl, rfl⟩
    unfold Inside
    omega

variable [Scalar α]

section Cells

variable {m : Matrix α} {i j : Int} {value : α}

theorem cell_of_not_inside (outside : ¬m.Inside i j) :
    m.cell i j = .error ⟨[.cell .get i j], .outOfRange⟩ := by
  have nowhere : Grid.locate? m.rows m.cols i j = none := dif_neg outside
  unfold cell
  rw [nowhere]

theorem row_natCast (m : Matrix α) (row : Fin m.rows) : m.row row = .ok (m.sheet.row row) := by
  have inside : 0 ≤ (row.val : Int) ∧ (row.val : Int) < m.rows := by omega
  exact dif_pos inside

theorem set_of_not_inside (outside : ¬m.Inside i j) :
    m.set i j value = .error ⟨[.cell .set i j], .outOfRange⟩ := by
  have nowhere : Grid.locate? m.rows m.cols i j = none := dif_neg outside
  unfold set
  rw [nowhere]

theorem set_of_not_finite (inside : m.Inside i j) (refused : Scalar.finite value = false) :
    m.set i j value = .error ⟨[.cell .set i j], .notFinite⟩ := by
  obtain ⟨row, col, rfl, rfl⟩ := inside_iff.mp inside
  unfold set Sheet.store
  rw [Grid.locate?_natCast, refused]
  rfl

theorem set_natCast (m : Matrix α) (row : Fin m.rows) (col : Fin m.cols)
    (finite : Scalar.finite value = true) :
    m.set row col value = .ok ⟨m.rows, m.cols, m.sheet.set row col value⟩ := by
  unfold set Sheet.store
  rw [Grid.locate?_natCast, finite]
  rfl

/-- A cell that has been set reads as the new value, and all others are as they were. -/
theorem cell_set (fits : m.rows * m.cols < wordLimit) (row : Fin m.rows) (col : Fin m.cols)
    (i j : Int) : cell ⟨m.rows, m.cols, m.sheet.set row col value⟩ i j =
      if i = row ∧ j = col then .ok value else m.cell i j := by
  by_cases inside : m.Inside i j
  · obtain ⟨row', col', rfl, rfl⟩ := inside_iff.mp inside
    have same : ((row'.val : Int) = row ∧ (col'.val : Int) = col) ↔ row = row' ∧ col = col' := by
      omega
    have before : m.cell row' col' = .ok (m.sheet.get row' col') := m.sheet.cell_natCast row' col'
    rw [Sheet.cell_natCast, Sheet.get_set fits, before, if_congr same rfl rfl, apply_ite Except.ok]
  · have elsewhere : ¬(i = row ∧ j = col) := fun here => inside (inside_iff.mpr ⟨row, col, here⟩)
    rw [if_neg elsewhere, cell_of_not_inside inside]
    exact cell_of_not_inside inside

/-- What has been set is one finite value at a cell of the matrix. -/
theorem set_eq_ok {next : Matrix α} (stored : m.set i j value = .ok next) :
    Scalar.finite value = true ∧ ∃ (row : Fin m.rows) (col : Fin m.cols), i = row ∧ j = col ∧
      next = ⟨m.rows, m.cols, m.sheet.set row col value⟩ := by
  by_cases inside : m.Inside i j
  · cases finite : Scalar.finite value with
    | false =>
        rw [set_of_not_finite inside finite] at stored
        cases stored
    | true =>
        obtain ⟨row, col, rfl, rfl⟩ := inside_iff.mp inside
        rw [set_natCast m row col finite] at stored
        exact ⟨rfl, row, col, rfl, rfl, (Except.ok.inj stored).symm⟩
  · rw [set_of_not_inside inside] at stored
    cases stored

end Cells

/-- The buffer has one finite value for each cell. A cell inside the shape is read from its
row-major position, on its own and with its row, and no other cell is read. -/
structure LaidOut (m : Matrix α) : Prop where
  length : m.values.size = m.rows * m.cols
  finite : AllFinite m.values
  inside : ∀ i j, m.Inside i j → ∃ value row, m.cell i j = .ok value ∧
    m.row i = .ok row ∧ row.toArray[j.toNat]? = some value ∧
    m.values[(i * m.cols + j).toNat]? = some value
  outside : ∀ i j, ¬m.Inside i j → m.cell i j = .error ⟨[.cell .get i j], .outOfRange⟩

theorem laidOut {m : Matrix α} (fits : m.rows * m.cols < wordLimit) (finite : AllFinite m.values) :
    m.LaidOut where
  length := Sheet.size_values fits m.sheet
  finite := finite
  outside _ _ := cell_of_not_inside
  inside i j inside := by
    obtain ⟨row, col, rfl, rfl⟩ := inside_iff.mp inside
    refine ⟨_, _, m.sheet.cell_natCast row col, m.row_natCast row, ?_, ?_⟩
    · rw [Int.toNat_natCast, Vector.getElem?_toArray, Vector.getElem?_eq_getElem col.isLt,
        Sheet.getElem_row]
    · have place : ((row.val : Int) * m.cols + col.val).toNat = row.val * m.cols + col.val :=
        Int.toNat_natCast _
      rw [place]
      exact Sheet.getElem_values fits m.sheet row col

/-! ## Constructors -/

inductive Made (m : Matrix α) : Prop where
  | zeros {rows cols : Int} (made : zeros rows cols = .ok m)
  | identity {n : Int} (made : identity n = .ok m)
  | ofValues {rows cols : Int} {values : Array α} (made : ofValues rows cols values = .ok m)

theorem Made.allFinite (zeroFinite : Scalar.finite (0 : α) = true)
    (oneFinite : Scalar.finite (1 : α) = true) {m : Matrix α}
    (fits : m.rows * m.cols < wordLimit) (made : m.Made) : AllFinite m.values := by
  cases made with
  | zeros made =>
      obtain ⟨⟨r, c⟩, -, same⟩ := Outcome.bind_eq_ok_iff.mp made
      cases same
      exact Sheet.allFinite_zero zeroFinite
  | identity made =>
      obtain ⟨⟨size, _⟩, -, same⟩ := Outcome.bind_eq_ok_iff.mp made
      cases same
      refine (Sheet.allFinite_values_iff fits _).mpr fun i j => ?_
      rw [Sheet.get_ofFn fits]
      split
      · exact oneFinite
      · exact zeroFinite
  | @ofValues rows cols values made =>
      obtain ⟨⟨r, c⟩, -, accepted⟩ := Outcome.bind_eq_ok_iff.mp made
      dsimp only at accepted
      split at accepted
      · split at accepted
        case h_1 => cases accepted
        case h_2 searched =>
          cases accepted
          exact Sheet.allFinite_values_of_search searched
      · cases accepted

end Matrix

/-! ## Changes of one matrix -/

namespace Matrix

variable [Scalar α]

/-- A matrix is left as it is, has a cell set, or is replaced in place as far as that goes. -/
inductive Becomes (m : Matrix α) : Matrix α → Prop where
  | same : Becomes m m
  | set {i j : Int} {value : α} {next : Matrix α} (stored : m.set i j value = .ok next) :
      Becomes m next
  | apply (f : Nat → Nat → α → α) : Becomes m (m.apply f).2

variable {m next : Matrix α}

theorem Becomes.shape (changed : m.Becomes next) : next.rows = m.rows ∧ next.cols = m.cols := by
  cases changed with
  | same => exact ⟨rfl, rfl⟩
  | set stored =>
      obtain ⟨-, row, col, -, -, rfl⟩ := set_eq_ok stored
      exact ⟨rfl, rfl⟩
  | apply f => exact ⟨rfl, rfl⟩

theorem Becomes.allFinite (fits : m.rows * m.cols < wordLimit) (changed : m.Becomes next)
    (finite : AllFinite m.values) : AllFinite next.values := by
  have cells := (Sheet.allFinite_values_iff fits m.sheet).mp finite
  cases changed with
  | same => exact finite
  | set stored =>
      obtain ⟨valueFinite, row, col, -, -, rfl⟩ := set_eq_ok stored
      refine (Sheet.allFinite_values_iff fits _).mpr fun i j => ?_
      rw [Sheet.get_set fits]
      split
      · exact valueFinite
      · exact cells i j
  | apply f =>
      exact (Sheet.allFinite_values_iff fits _).mpr (Sheet.finite_get_apply fits cells)

/-- However often a matrix is changed, it keeps its shape and holds finite values only. -/
theorem keeps_of_changes (fits : m.rows * m.cols < wordLimit) (finite : AllFinite m.values)
    (changes : Relation.ReflTransGen Becomes m next) :
    (next.rows = m.rows ∧ next.cols = m.cols) ∧ AllFinite next.values := by
  induction changes with
  | refl => exact ⟨⟨rfl, rfl⟩, finite⟩
  | tail _ change ih =>
      obtain ⟨⟨sameRows, sameCols⟩, before⟩ := ih
      obtain ⟨rows_eq, cols_eq⟩ := change.shape
      refine ⟨⟨rows_eq.trans sameRows, cols_eq.trans sameCols⟩, change.allFinite ?_ before⟩
      rw [sameRows, sameCols]
      exact fits

end Matrix

/-! ## Changes in registers -/

inductive Change (ρ α : Type) where
  | set (register : ρ) (i j : Int) (value : α)
  | apply (register : ρ) (f : Nat → Nat → α → α)
  | clone (source target : ρ)

abbrev Registers (ρ α : Type) : Type :=
  ρ → Matrix α

namespace Change

variable [DecidableEq ρ]

/-- The register from which the contents of a register come. -/
def origin (change : Change ρ α) (register : ρ) : ρ :=
  match change with
  | .clone source target => if register = target then source else register
  | _ => register

/-- The register in which the contents of a register were before a run of changes. -/
def origins (changes : List (Change ρ α)) (register : ρ) : ρ :=
  changes.foldr origin register

variable [Scalar α]

/-- A change in its registers. A matrix that refuses to have a cell set is left as it is, and one
that fails to be replaced has been replaced as far as that went. -/
def perform (store : Registers ρ α) : Change ρ α → Outcome α Unit × Registers ρ α
  | .set register i j value =>
      match (store register).set i j value with
      | .ok m => (.ok (), Function.update store register m)
      | .error error => (.error error, store)
  | .apply register f =>
      let (outcome, m) := (store register).apply f
      (outcome, Function.update store register m)
  | .clone source target => (.ok (), Function.update store target (store source))

/-- Changes one after the other, whether they succeed or not. -/
def run (store : Registers ρ α) (changes : List (Change ρ α)) : Registers ρ α :=
  changes.foldl (fun store change => (change.perform store).2) store

theorem becomes_update {store : Registers ρ α} {target : ρ} {m : Matrix α}
    (changed : (store target).Becomes m) (register : ρ) :
    (store register).Becomes (Function.update store target m register) := by
  by_cases here : register = target
  · subst here
    rw [Function.update_self]
    exact changed
  · rw [Function.update_of_ne here]
    exact .same

theorem becomes_perform (store : Registers ρ α) (change : Change ρ α) (register : ρ) :
    (store (change.origin register)).Becomes ((change.perform store).2 register) := by
  cases change with
  | set target i j value =>
      unfold perform origin
      dsimp only
      split
      case h_1 m stored => exact becomes_update (.set stored) register
      case h_2 => exact .same
  | apply target f => exact becomes_update (.apply f) register
  | clone source target =>
      unfold perform origin
      dsimp only
      by_cases here : register = target
      · subst here
        rw [Function.update_self, if_pos rfl]
        exact .same
      · rw [Function.update_of_ne here, if_neg here]
        exact .same

/-- What a register holds after a run of changes has become, step by step, of what its origin held
before. -/
theorem becomes_run (store : Registers ρ α) (changes : List (Change ρ α)) (register : ρ) :
    Relation.ReflTransGen Matrix.Becomes (store (origins changes register))
      (run store changes register) := by
  induction changes generalizing store with
  | nil => exact .refl
  | cons change rest ih =>
      exact .head (becomes_perform store change (origins rest register)) (ih _)

/-- What comes of setting a cell of a register: coordinates outside the matrix are refused first,
then a value that is not finite, and a refusal changes nothing; a value that is stored is read at
its coordinates from then on, and every other cell and every other register is as it was. -/
structure SetsCell (store : Registers ρ α) (register : ρ) (i j : Int) (value : α) : Prop where
  outside : ¬(store register).Inside i j →
    (set register i j value).perform store = (.error ⟨[.cell .set i j], .outOfRange⟩, store)
  refused : (store register).Inside i j → Scalar.finite value = false →
    (set register i j value).perform store = (.error ⟨[.cell .set i j], .notFinite⟩, store)
  stored : (store register).Inside i j → Scalar.finite value = true →
    ∃ next, (set register i j value).perform store = (.ok (), next) ∧
      (next register).cell i j = .ok value ∧
      (∀ i' j', (i', j') ≠ (i, j) → (next register).cell i' j' = (store register).cell i' j') ∧
      ∀ other, other ≠ register → next other = store other

section SetsCell

variable {store : Registers ρ α} {register : ρ} {i j : Int} {value : α}

theorem perform_set_of_error {error : Error α}
    (refused : (store register).set i j value = .error error) :
    (set register i j value).perform store = (.error error, store) := by
  simp only [perform, refused]

theorem perform_set_of_ok {m : Matrix α} (stored : (store register).set i j value = .ok m) :
    (set register i j value).perform store = (.ok (), Function.update store register m) := by
  simp only [perform, stored]

theorem setsCell (fits : (store register).rows * (store register).cols < wordLimit) (i j : Int)
    (value : α) : SetsCell store register i j value where
  outside outside := perform_set_of_error (Matrix.set_of_not_inside outside)
  refused inside refused := perform_set_of_error (Matrix.set_of_not_finite inside refused)
  stored inside finite := by
    obtain ⟨row, col, rfl, rfl⟩ := Matrix.inside_iff.mp inside
    refine ⟨_, perform_set_of_ok (Matrix.set_natCast _ row col finite), ?cell, ?others, ?frame⟩
    case cell =>
      rw [Function.update_self, Matrix.cell_set fits, if_pos ⟨rfl, rfl⟩]
    case others =>
      intro i' j' elsewhere
      have notHere : ¬(i' = row ∧ j' = col) := fun here => elsewhere (Prod.ext here.1 here.2)
      rw [Function.update_self, Matrix.cell_set fits, if_neg notHere]
    case frame => exact fun other elsewhere => Function.update_of_ne elsewhere ..

end SetsCell

/-- Matrices that constructors have made, each small enough for its cells to be counted in a word,
keep their layout and hold finite values only, whatever is done in the registers. -/
theorem registers_keep_layout (zeroFinite : Scalar.finite (0 : α) = true)
    (oneFinite : Scalar.finite (1 : α) = true) {start : Registers ρ α}
    (made : ∀ register, (start register).Made)
    (fits : ∀ register, (start register).rows * (start register).cols < wordLimit)
    (changes : List (Change ρ α)) (register : ρ) :
    let store := run start changes
    (store register).rows = (start (origins changes register)).rows ∧
      (store register).cols = (start (origins changes register)).cols ∧
      (store register).LaidOut ∧ ∀ i j value, SetsCell store register i j value := by
  intro store
  have finiteBefore := (made (origins changes register)).allFinite zeroFinite oneFinite (fits _)
  obtain ⟨⟨sameRows, sameCols⟩, finite⟩ :=
    Matrix.keeps_of_changes (fits _) finiteBefore (becomes_run start changes register)
  have small : (store register).rows * (store register).cols < wordLimit := by
    rw [sameRows, sameCols]
    exact fits _
  exact ⟨sameRows, sameCols, Matrix.laidOut small finite, setsCell small⟩

/-- A matrix in binary64 that is divided into one until a zero stops it, and is then copied over a
matrix without columns, where an infinity is refused. -/
theorem registers_keep_layout_binary64 :
    let start : Registers Bool Float := fun right =>
      if right then ⟨3, 0, .zero⟩ else ⟨2, 2, .zero⟩
    let changes : List (Change Bool Float) :=
      [.set false 0 0 2, .apply false fun _ _ value => 1 / value, .clone false true,
        .set true 1 1 Scalar.inf]
    let store := run start changes
    (∀ register, (start register).Made) ∧
      (∀ register, (start register).rows * (start register).cols < wordLimit) ∧
      (store true).rows = 2 ∧ (store true).cols = 2 ∧ (store true).LaidOut ∧
      (set true 2 0 1).perform store = (.error ⟨[.cell .set 2 0], .outOfRange⟩, store) := by
  intro start changes store
  have made : ∀ register, (start register).Made := by
    rintro (_ | _)
    · exact .zeros (rfl : Matrix.zeros 2 2 = .ok ⟨2, 2, .zero⟩)
    · exact .zeros (rfl : Matrix.zeros 3 0 = .ok ⟨3, 0, .zero⟩)
  have fits : ∀ register, (start register).rows * (start register).cols < wordLimit := by
    rintro (_ | _)
    · decide
    · decide
  obtain ⟨rows_eq, cols_eq, laidOut, sets⟩ := registers_keep_layout MeasuredScalar.finite_zero
    Binary64.finite_one made fits changes true
  refine ⟨made, fits, rows_eq, cols_eq, laidOut, (sets 2 0 1).outside ?_⟩
  unfold Matrix.Inside
  rw [rows_eq]
  exact fun inside => absurd inside.1.2 (by decide)

end Change

end EchoState
