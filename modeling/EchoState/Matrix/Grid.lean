import EchoState.Error

/-!
# Grids

A grid carries its shape in its type and keeps its cells in one row-major buffer. The buffer
position of a cell and the cell of a buffer position are inverse to each other; everything else
about the layout follows from that.
-/

namespace EchoState

@[simp]
theorem vector_get_mk {α : Type} {n : Nat} (v : Vector α n) (i : Nat) (inside : i < n) :
    v.get ⟨i, inside⟩ = v[i] :=
  rfl

/-- Cells in rows and columns, kept row by row in one buffer. -/
structure Grid (α : Type) (rows cols : Nat) where
  cells : Vector α (rows * cols)

namespace Grid

variable {α : Type} {rows cols : Nat}

theorem offset_lt (i : Fin rows) (j : Fin cols) : i.val * cols + j.val < rows * cols :=
  calc
    i.val * cols + j.val < i.val * cols + cols := Nat.add_lt_add_left j.isLt _
    _ = (i.val + 1) * cols := (Nat.succ_mul i.val cols).symm
    _ ≤ rows * cols := Nat.mul_le_mul_right cols i.isLt

@[inline]
def offset (i : Fin rows) (j : Fin cols) : Fin (rows * cols) :=
  ⟨i.val * cols + j.val, offset_lt i j⟩

theorem cols_pos (position : Fin (rows * cols)) : 0 < cols :=
  Nat.pos_of_mul_pos_left (Nat.lt_of_le_of_lt (Nat.zero_le _) position.isLt)

def rowOf (position : Fin (rows * cols)) : Fin rows :=
  ⟨position.val / cols, Nat.div_lt_of_lt_mul (Nat.mul_comm rows cols ▸ position.isLt)⟩

def colOf (position : Fin (rows * cols)) : Fin cols :=
  ⟨position.val % cols, Nat.mod_lt _ (cols_pos position)⟩

@[simp]
theorem rowOf_offset (i : Fin rows) (j : Fin cols) : rowOf (offset i j) = i := by
  apply Fin.ext
  have positive : 0 < cols := Nat.lt_of_le_of_lt (Nat.zero_le _) j.isLt
  show (i.val * cols + j.val) / cols = i.val
  rw [Nat.add_comm, Nat.add_mul_div_right _ _ positive, Nat.div_eq_of_lt j.isLt, Nat.zero_add]

@[simp]
theorem colOf_offset (i : Fin rows) (j : Fin cols) : colOf (offset i j) = j := by
  apply Fin.ext
  show (i.val * cols + j.val) % cols = j.val
  rw [Nat.add_comm, Nat.add_mul_mod_self_right, Nat.mod_eq_of_lt j.isLt]

@[simp]
theorem offset_rowOf_colOf (position : Fin (rows * cols)) :
    offset (rowOf position) (colOf position) = position := by
  apply Fin.ext
  show position.val / cols * cols + position.val % cols = position.val
  rw [Nat.mul_comm, Nat.div_add_mod]

theorem offset_inj {i i' : Fin rows} {j j' : Fin cols} :
    offset i j = offset i' j' ↔ i = i' ∧ j = j' := by
  constructor
  · intro same
    exact ⟨by rw [← rowOf_offset i j, same, rowOf_offset],
      by rw [← colOf_offset i j, same, colOf_offset]⟩
  · rintro ⟨rfl, rfl⟩
    rfl

@[inline]
def get (m : Grid α rows cols) (i : Fin rows) (j : Fin cols) : α :=
  m.cells[offset i j]

def set (m : Grid α rows cols) (i : Fin rows) (j : Fin cols) (value : α) : Grid α rows cols :=
  ⟨m.cells.set (offset i j).val value (offset i j).isLt⟩

def ofFn (f : Fin rows → Fin cols → α) : Grid α rows cols :=
  ⟨Vector.ofFn fun position => f (rowOf position) (colOf position)⟩

@[simp]
theorem get_ofFn (f : Fin rows → Fin cols → α) (i : Fin rows) (j : Fin cols) :
    (ofFn f).get i j = f i j := by
  simp [get, ofFn]

theorem get_set (m : Grid α rows cols) (i i' : Fin rows) (j j' : Fin cols) (value : α) :
    (m.set i j value).get i' j' = if i = i' ∧ j = j' then value else m.get i' j' := by
  have same : (offset i j).val = (offset i' j').val ↔ i = i' ∧ j = j' := by
    rw [← Fin.ext_iff, offset_inj]
  simp only [get, set, Fin.getElem_fin, Vector.getElem_set, same]

theorem ext_get {a b : Grid α rows cols} (same : ∀ i j, a.get i j = b.get i j) : a = b := by
  cases a with
  | mk left =>
      cases b with
      | mk right =>
          congr 1
          apply Vector.ext
          intro position inside
          have cell := same (rowOf ⟨position, inside⟩) (colOf ⟨position, inside⟩)
          simpa [get] using cell

def cast {rows' cols' : Nat} (sameRows : rows = rows') (sameCols : cols = cols')
    (m : Grid α rows cols) : Grid α rows' cols' :=
  ⟨m.cells.cast (by rw [sameRows, sameCols])⟩

@[simp]
theorem get_cast {rows' cols' : Nat} (sameRows : rows = rows') (sameCols : cols = cols')
    (m : Grid α rows cols) (i : Fin rows') (j : Fin cols') :
    (m.cast sameRows sameCols).get i j = m.get (i.cast sameRows.symm) (j.cast sameCols.symm) := by
  cases sameRows
  cases sameCols
  rfl

def row (m : Grid α rows cols) (i : Fin rows) : Vector α cols :=
  Vector.ofFn fun j => m.get i j

@[simp]
theorem getElem_row (m : Grid α rows cols) (i : Fin rows) (j : Nat) (inside : j < cols) :
    (m.row i)[j] = m.get i ⟨j, inside⟩ := by
  simp [row]

def column (m : Grid α rows cols) (j : Fin cols) : Vector α rows :=
  Vector.ofFn fun i => m.get i j

@[simp]
theorem getElem_column (m : Grid α rows cols) (j : Fin cols) (i : Nat) (inside : i < rows) :
    (m.column j)[i] = m.get ⟨i, inside⟩ j := by
  simp [column]

def ofRows (m : Vector (Vector α cols) rows) : Grid α rows cols :=
  ofFn fun i j => m[i][j]

@[simp]
theorem get_ofRows (m : Vector (Vector α cols) rows) (i : Fin rows) (j : Fin cols) :
    (ofRows m).get i j = m[i][j] :=
  get_ofFn _ i j

def ofColumns (m : Vector (Vector α rows) cols) : Grid α rows cols :=
  ofFn fun i j => m[j][i]

@[simp]
theorem get_ofColumns (m : Vector (Vector α rows) cols) (i : Fin rows) (j : Fin cols) :
    (ofColumns m).get i j = m[j][i] :=
  get_ofFn _ i j

def positions (rows cols : Nat) : List (Fin rows × Fin cols) :=
  (List.finRange rows).flatMap fun i => (List.finRange cols).map fun j => (i, j)

theorem mem_positions (i : Fin rows) (j : Fin cols) : (i, j) ∈ positions rows cols := by
  simp [positions]

/-- The walk meets the cells by rows, and those of a row by columns. -/
theorem positions_pairwise (rows cols : Nat) :
    (positions rows cols).Pairwise fun place place' =>
      place.1 < place'.1 ∨ place.1 = place'.1 ∧ place.2 < place'.2 := by
  rw [positions, List.pairwise_flatMap]
  constructor
  · intro i _
    rw [List.pairwise_map]
    exact (List.pairwise_lt_finRange cols).imp fun before => Or.inr ⟨rfl, before⟩
  · refine (List.pairwise_lt_finRange rows).imp fun above place listed place' listed' => ?_
    obtain ⟨j, _, rfl⟩ := List.mem_map.mp listed
    obtain ⟨j', _, rfl⟩ := List.mem_map.mp listed'
    exact Or.inl above

/-- Cells that are replaced one after the other by values of their own hold these values, and the
others are as they were. -/
theorem get_foldl_set (f : Fin rows → Fin cols → α) (places : List (Fin rows × Fin cols))
    (m : Grid α rows cols) (i : Fin rows) (j : Fin cols) :
    let filled := places.foldl (fun m place => m.set place.1 place.2 (f place.1 place.2)) m
    ((i, j) ∈ places → filled.get i j = f i j) ∧
      ((i, j) ∉ places → filled.get i j = m.get i j) := by
  induction places generalizing m with
  | nil => exact ⟨fun listed => absurd listed List.not_mem_nil, fun _ => rfl⟩
  | cons place rest ih =>
      obtain ⟨written, kept⟩ := ih (m.set place.1 place.2 (f place.1 place.2))
      constructor
      · intro listed
        by_cases later : (i, j) ∈ rest
        · exact written later
        · obtain rfl : (i, j) = place := (List.mem_cons.mp listed).resolve_right later
          exact (kept later).trans ((get_set ..).trans (if_pos ⟨rfl, rfl⟩))
      · intro unlisted
        rw [List.mem_cons, not_or] at unlisted
        have elsewhere : ¬(place.1 = i ∧ place.2 = j) := fun same =>
          unlisted.1 (Prod.ext same.1.symm same.2.symm)
        exact (kept unlisted.2).trans ((get_set ..).trans (if_neg elsewhere))

section Numeric

variable [Scalar α]

def zero : Grid α rows cols :=
  ⟨Vector.replicate (rows * cols) 0⟩

@[simp]
theorem get_zero (i : Fin rows) (j : Fin cols) : (zero : Grid α rows cols).get i j = 0 := by
  simp [get, zero]

def isZero (m : Grid α rows cols) : Bool :=
  m.cells.all Scalar.isZero

def firstNonFinite? (m : Grid α rows cols) : Option (Fin rows × Fin cols) :=
  (m.cells.findFinIdx? fun value => !Scalar.finite value).map fun position =>
    (rowOf position, colOf position)

def store (m : Grid α rows cols) (i : Fin rows) (j : Fin cols) (value : α) :
    Outcome α (Grid α rows cols) :=
  if Scalar.finite value then .ok (m.set i j value)
  else .error ⟨[.cell .set i j], .notFinite⟩

end Numeric

def locate? (rows cols : Nat) (i j : Int) : Option (Fin rows × Fin cols) :=
  if inside : (0 ≤ i ∧ i < rows) ∧ (0 ≤ j ∧ j < cols) then
    some (⟨i.toNat, by omega⟩, ⟨j.toNat, by omega⟩)
  else none

end Grid

end EchoState
