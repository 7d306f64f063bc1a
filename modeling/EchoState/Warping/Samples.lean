import EchoState.Matrix.Operand

/-!
# Samples of trajectories

A trajectory has one sample in each column, from top to bottom. An alignment goes from sample to
sample, so the samples are first copied one after the other into one buffer: the cells of a stored
matrix in the order of its rows, those of a view in the order of its columns until a read fails.
-/

namespace EchoState.Warping

variable {α : Type} [Scalar α] {channels count : Nat}

/-- The samples of a stored matrix, copied cell by cell in the order of its rows. -/
def copySamples (m : Sheet α channels count) : Grid α count channels :=
  (Grid.positions channels count).foldl
    (fun samples (i, j) => samples.set j i (m.get i j)) .zero

/-- Reads the cells at the given places of a buffer of samples, in order; nothing is read after an
error. -/
def readInto (v : View α) (samples : Grid α count channels) :
    List (Fin count × Fin channels) → Outcome α (Grid α count channels)
  | [] => .ok samples
  | (j, i) :: rest => do
      let value ← (v.read i j).outcome
      readInto v (samples.set j i value) rest

/-- The samples of a view taken to have the given shape, read one after the other. -/
def readSamples (v : View α) (channels count : Nat) : Outcome α (Grid α count channels) :=
  readInto v .zero (Grid.positions count channels)

def samplesOf (samples : Grid α count channels) : Array (List α) :=
  Array.ofFn fun j => (samples.row j).toList

/-- A buffer for the samples of the reported shape can be made and cut into its columns. -/
def checkBuffer (channels count : Int) : Outcome α Unit :=
  if count < 0 ∨ channels < 0 ∧ count ≠ 0 then .error .negativeLength
  else if channels.toNat * count.toNat < wordLimit then .ok ()
  else .error .outsideBuffer

omit [Scalar α] in
theorem checkBuffer_of_fits (fits : channels * count < wordLimit) :
    checkBuffer (channels : Int) count = (.ok () : Outcome α Unit) := by
  unfold checkBuffer
  rw [if_neg (by omega)]
  exact if_pos fits

def columns : Operand α → Outcome α (Array (List α))
  | .absent => .error (.of .absent)
  | .stored m => do
      checkBuffer m.rows m.cols
      return samplesOf (copySamples m.sheet)
  | .view v => do
      checkBuffer v.rows v.cols
      let samples ← readSamples v v.rows.toNat v.cols.toNat
      return samplesOf samples

@[simp]
theorem get_copySamples (m : Sheet α channels count) (j : Fin count) (i : Fin channels) :
    (copySamples m).get j i = m.get i j := by
  have copied : copySamples m = ((Grid.positions channels count).map Prod.swap).foldl
      (fun samples place => samples.set place.1 place.2 (m.get place.2 place.1)) .zero := by
    rw [List.foldl_map]
    rfl
  have listed : (j, i) ∈ (Grid.positions channels count).map Prod.swap :=
    List.mem_map.mpr ⟨(i, j), Grid.mem_positions i j, rfl⟩
  rw [copied]
  exact (Grid.get_foldl_set (fun j i => m.get i j) _ _ j i).1 listed

theorem columns_stored (fits : channels * count < wordLimit) (m : Sheet α channels count) :
    columns (.stored ⟨channels, count, m⟩) = .ok (Array.ofFn fun j => (m.column j).toList) := by
  have rows (j : Fin count) : (copySamples m).row j = m.column j :=
    Vector.ext fun i inside => by simp
  simp only [columns, checkBuffer_of_fits fits, samplesOf, rows]
  rfl

end EchoState.Warping
