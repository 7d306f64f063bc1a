import EchoState.Matrix.Selector
import EchoState.Proofs.Reservoir.Base
import EchoState.Proofs.Scalar.Unit

/-!
# Cells of a selector

A selector is put together from rows of the identity matrix and from zeros. Its cells are one where
the row and the column have the same number and zero elsewhere, so a product with it picks entries
and adds nothing to them: every other term of a sum is a zero, and it does not matter which zeros
the kind of product leaves out.
-/

namespace EchoState

theorem Outcome.mapM_eq_ok {α β γ : Type} {list : List β} {step : β → Outcome α γ} {result : β → γ}
    (succeeds : ∀ x ∈ list, step x = .ok (result x)) : list.mapM step = .ok (list.map result) := by
  induction list with
  | nil => rfl
  | cons x rest ih =>
      rw [List.forall_mem_cons] at succeeds
      rw [List.mapM_cons, succeeds.1, Outcome.ok_bind, ih succeeds.2]
      rfl

variable {α : Type} [Scalar α] {rows cols : Nat}

theorem Sheet.getElem_values (fits : rows * cols < wordLimit) (m : Sheet α rows cols) (i : Fin rows)
    (j : Fin cols) : m.values[i.val * cols + j.val]? = some (m.get i j) := by
  obtain ⟨grid, rfl⟩ := exists_grid fits m
  have inside : i.val * cols + j.val < grid.cells.toArray.size := by
    rw [Vector.size_toArray]
    exact Grid.offset_lt i j
  exact Array.getElem?_eq_getElem inside

namespace Matrix

def selectorCell (i j : Nat) : α :=
  if i = j then 1 else 0

theorem identity_natCast (n : Nat) : (identity n : Outcome α (Matrix α)) =
    .ok ⟨n, n, .ofFn fun i j => if i = j then 1 else 0⟩ := by
  unfold identity
  rw [dimensions_natCast]
  rfl

theorem row_identity (square : cols * cols < wordLimit) {i : Nat} (inside : i < cols) :
    ((⟨cols, cols, .ofFn fun i j => if i = j then 1 else 0⟩ : Matrix α).row i).map Vector.toList =
      .ok (List.ofFn fun j : Fin cols => selectorCell i j) := by
  unfold row
  rw [dif_pos ⟨Int.natCast_nonneg i, Int.ofNat_lt.mpr inside⟩]
  refine congrArg Except.ok (List.ext_getElem (by simp) fun j first second => ?_)
  have within : j < cols := by simpa using first
  simp [Sheet.row, Sheet.get_ofFn square, selectorCell, Fin.ext_iff]

/-- The leading rows of the identity matrix and the zeros below them, in one list. -/
theorem selector_values (rows cols : Nat) :
    ((List.range (min rows cols)).map fun i => List.ofFn fun j : Fin cols =>
        (selectorCell i j : α)).flatten ++ List.replicate ((rows - cols) * cols) 0 =
      List.ofFn fun position : Fin (rows * cols) =>
        selectorCell (Grid.rowOf position) (Grid.colOf position) := by
  have whole : ((List.range (min rows cols)).map fun i => List.ofFn fun j : Fin cols =>
        (selectorCell i j : α)) ++ List.replicate (rows - cols) (List.replicate cols 0) =
      List.ofFn fun i : Fin rows => List.ofFn fun j : Fin cols => selectorCell i j := by
    apply List.ext_getElem
    · simp
      omega
    · intro i first second
      have inside : i < rows := by simpa using second
      rw [List.getElem_ofFn]
      by_cases early : i < cols
      · rw [List.getElem_append_left (by simp; omega)]
        simp
      · rw [List.getElem_append_right (by simp; omega), List.getElem_replicate]
        refine (List.eq_replicate_iff.mpr ⟨by simp, fun value isCell => ?_⟩).symm
        obtain ⟨j, rfl⟩ := (List.mem_ofFn' _ _).mp isCell
        have later : i ≠ j.val := by
          have := j.isLt
          omega
        exact if_neg later
  rw [← List.flatten_replicate_replicate, ← List.flatten_append, whole, List.ofFn_mul]
  refine congrArg List.flatten (congrArg List.ofFn (funext fun i => congrArg List.ofFn
    (funext fun j => ?_)))
  exact (congrArg₂ (fun (a : Fin rows) (b : Fin cols) => (selectorCell a b : α))
    (Grid.rowOf_offset i j) (Grid.colOf_offset i j)).symm

/-- The selector whose shape and whose identity matrix fit is made, with finite cells, which are one
on the diagonal and zero elsewhere. -/
theorem selector_eq_ok [MeasuredScalar α] (oneFinite : Scalar.finite (1 : α) = true)
    (square : cols * cols < wordLimit) (fits : rows * cols < wordLimit) :
    ∃ sheet : Sheet α rows cols, selector rows cols = .ok ⟨rows, cols, sheet⟩ ∧
      AllFinite sheet.values ∧ ∀ i j, sheet.get i j = selectorCell i j := by
  have finite : AllFinite (List.ofFn fun position : Fin (rows * cols) =>
      (selectorCell (Grid.rowOf position) (Grid.colOf position) : α)).toArray := by
    intro value isCell
    obtain ⟨position, rfl⟩ := (List.mem_ofFn' _ _).mp (List.mem_toArray.mp isCell)
    dsimp only [selectorCell]
    split
    · exact oneFinite
    · exact MeasuredScalar.finite_zero
  obtain ⟨sheet, kept, made⟩ := ofValues_of_finite fits (by simp) finite
  refine ⟨sheet, ?_, kept ▸ finite, fun i j => ?_⟩
  · unfold selector
    rw [identity_natCast, Outcome.ok_bind, Int.toNat_natCast, Outcome.mapM_eq_ok fun i early =>
      row_identity square (Nat.lt_of_lt_of_le (List.mem_range.mp early) (Nat.min_le_right _ _)),
      Outcome.ok_bind]
    dsimp only
    rw [selector_values, made]
  · have cell := Sheet.getElem_values fits sheet i j
    rw [kept] at cell
    have inside := Grid.offset_lt i j
    rw [List.getElem?_toArray, List.getElem?_ofFn, dif_pos inside] at cell
    refine (Option.some.inj cell).symm.trans ?_
    exact congrArg₂ (fun (a : Fin rows) (b : Fin cols) => (selectorCell a b : α))
      (Grid.rowOf_offset i j) (Grid.colOf_offset i j)

/-! ## Sums over a row or a column -/

theorem finite_selectorCell [UnitScalar α] (i j : Nat) :
    Scalar.finite (selectorCell i j : α) = true := by
  unfold selectorCell
  split
  · exact UnitScalar.finite_one
  · exact MeasuredScalar.finite_zero

/-- An entry of a vector, or zero beyond its end. -/
def padded (x : Fin cols → α) (i : Nat) : α :=
  if inside : i < cols then x ⟨i, inside⟩ else 0

section Sums

variable [UnitScalar α] {x : Fin cols → α} (finite : ∀ k, Scalar.finite (x k) = true)

include finite

theorem finite_padded (i : Nat) : Scalar.finite (padded x i) = true := by
  unfold padded
  split
  · exact finite _
  · exact MeasuredScalar.finite_zero

/-- The sum along a row of a selector picks an entry, whichever zeros are left out of it. -/
theorem sumWhere_selectorCell_mul (i : Nat) {keep : Fin cols → Bool}
    (zeros : ∀ k, keep k = false → Scalar.isZero (selectorCell i k * x k)) :
    Scalar.sumWhere cols keep (fun k => selectorCell i k * x k) = Scalar.plain (padded x i) := by
  have elsewhere (k : Fin cols) (other : i ≠ k.val) :
      Scalar.isZero (selectorCell i k * x k) := by
    unfold selectorCell
    rw [if_neg other]
    exact SignedZeroScalar.isZero_mul_left (finite k) Scalar.isZero_zero
  unfold padded
  by_cases inside : i < cols
  · rw [dif_pos inside, Scalar.sumWhere_of_others_zero ⟨i, inside⟩ _ zeros]
    · unfold selectorCell
      rw [if_pos rfl, UnitScalar.one_mul (finite _)]
    · exact fun k other => elsewhere k fun same => other (Fin.ext same.symm)
  · rw [dif_neg inside, Scalar.plain_zero]
    exact Scalar.sumWhere_of_isZero cols keep fun k => elsewhere k (by omega)

/-- The sum along a column of the identity matrix picks an entry. -/
theorem sumWhere_mul_selectorCell (j : Fin cols) {keep : Fin cols → Bool}
    (zeros : ∀ k, keep k = false → Scalar.isZero (x k * selectorCell k j)) :
    Scalar.sumWhere cols keep (fun k => x k * selectorCell k j) = Scalar.plain (x j) := by
  rw [Scalar.sumWhere_of_others_zero j _ zeros]
  · unfold selectorCell
    rw [if_pos rfl, UnitScalar.mul_one (finite j)]
  · intro k other
    unfold selectorCell
    rw [if_neg fun same => other (Fin.ext same)]
    exact SignedZeroScalar.isZero_mul_right (finite k) Scalar.isZero_zero

end Sums

/-! ## Products -/

section Products

variable [UnitScalar α] {count : Nat}

theorem rowDot_of_selectorCells {m : Sheet α rows cols}
    (cells : ∀ i j, m.get i j = selectorCell i.val j.val) {x : Vector α cols}
    (finite : AllFinite x.toArray) (i : Fin rows) :
    m.rowDot x i = Scalar.plain (padded x.get i) := by
  unfold Sheet.rowDot
  simp only [cells]
  refine sumWhere_selectorCell_mul ((allFinite_vector_iff x).mp finite) i fun k left => ?_
  exact SignedZeroScalar.isZero_mul_right (finite_selectorCell i k) (Bool.not_inj left)

theorem cellSum_of_selectorCells {m : Sheet α rows cols}
    (cells : ∀ i j, m.get i j = selectorCell i.val j.val) {b : Sheet α cols count} {j : Fin count}
    (finite : ∀ k, Scalar.finite (b.get k j) = true) (i : Fin rows) :
    m.cellSum b i j = Scalar.plain (padded (b.get · j) i) := by
  unfold Sheet.cellSum
  simp only [cells]
  refine sumWhere_selectorCell_mul finite i fun k left => ?_
  exact SignedZeroScalar.isZero_mul_left (finite k) (Bool.not_inj left)

/-- A row against a column of the identity matrix. -/
theorem cellSum_of_identity {a : Sheet α rows cols} {unit : Sheet α cols cols}
    (cells : ∀ i j, unit.get i j = selectorCell i.val j.val) {i : Fin rows}
    (finite : ∀ k, Scalar.finite (a.get i k) = true) (j : Fin cols) :
    a.cellSum unit i j = Scalar.plain (a.get i j) := by
  unfold Sheet.cellSum
  simp only [cells]
  refine sumWhere_mul_selectorCell finite j fun k left => ?_
  exact SignedZeroScalar.isZero_mul_left (finite_selectorCell k j) (Bool.not_inj left)

end Products

end Matrix

end EchoState
