import EchoState.Proofs.Reservoir.Acceptance
import EchoState.Proofs.Reservoir.Placement

/-!
# Replacing one part

Each of the six parts that callers may replace is a place of the reservoir that can be read and
written by itself. What is handed over for a part is checked without a look at the reservoir, and it
is accepted exactly when it has the shape of the part and all of its entries can be read and are
finite. Then the part holds these entries and nothing else has changed, so the last of two
assignments to one part counts, and assignments to different parts can be exchanged. The cells of
each matrix of weights are assumed to be few enough to be counted.
-/

namespace EchoState

/-! ## Layouts -/

inductive Layout where
  | vector (length : Nat)
  | grid (rows cols : Nat)
  | sheet (rows cols : Nat)

namespace Layout

abbrev Kept (α : Type) : Layout → Type
  | vector length => Vector α length
  | grid rows cols => Grid α rows cols
  | sheet rows cols => Sheet α rows cols

/-- The cells of a matrix of the layout can be counted. -/
def Countable : Layout → Prop
  | vector _ => True
  | grid rows cols => rows * cols < wordLimit
  | sheet rows cols => rows * cols < wordLimit

abbrev Handed (α : Type) : Layout → Type
  | vector _ => Given α
  | grid _ _ => Operand α
  | sheet _ _ => Operand α

end Layout

/-- How each part is kept in a reservoir of the dimensions. -/
abbrev Field.layout (d : Dims) : Field → Layout
  | .state => .vector d.latents
  | .input => .vector d.inputs
  | .bias => .vector d.latents
  | .recurrent => .grid d.latents d.latents
  | .inputWeights => .grid d.latents d.inputs
  | .readoutWeights => .sheet d.outputs d.latents

theorem Dims.Countable.layout {d : Dims} (countable : d.Countable) (field : Field) :
    (field.layout d).Countable := by
  cases field with
  | state => trivial
  | input => trivial
  | bias => trivial
  | recurrent => exact countable.recurrent
  | inputWeights => exact countable.inputWeights
  | readoutWeights => exact countable.readoutWeights

/-! ## Parts -/

namespace Reservoir

variable {α : Type} {d : Dims}

def part (r : Reservoir α d) : (field : Field) → (field.layout d).Kept α
  | .state => r.state
  | .input => r.input
  | .bias => r.bias
  | .recurrent => r.recurrent
  | .inputWeights => r.inputWeights
  | .readoutWeights => r.readoutWeights

def put (r : Reservoir α d) : (field : Field) → (field.layout d).Kept α → Reservoir α d
  | .state, state => { r with state }
  | .input, input => { r with input }
  | .bias, bias => { r with bias }
  | .recurrent, recurrent => { r with recurrent }
  | .inputWeights, inputWeights => { r with inputWeights }
  | .readoutWeights, readoutWeights => { r with readoutWeights }

/-- The reservoirs differ in the given part at most. -/
structure SameBesides (field : Field) (r r' : Reservoir α d) : Prop where
  part_eq : ∀ other, other ≠ field → r'.part other = r.part other
  fixedPoint_eq : r'.fixedPoint = r.fixedPoint
  fixedInput_eq : r'.fixedInput = r.fixedInput
  converged_eq : r'.converged = r.converged
  lastDelta_eq : r'.lastDelta = r.lastDelta
  steps_eq : r'.steps = r.steps
  settings_eq : r'.settings = r.settings

@[simp]
theorem part_put (r : Reservoir α d) (field : Field) (value : (field.layout d).Kept α) :
    (r.put field value).part field = value := by
  cases field <;> rfl

theorem sameBesides_put (r : Reservoir α d) (field : Field) (value : (field.layout d).Kept α) :
    SameBesides field r (r.put field value) := by
  constructor
  case part_eq =>
    intro other different
    cases field <;> cases other <;> simp_all [part, put]
  all_goals cases field <;> rfl

@[simp]
theorem put_put (r : Reservoir α d) (field : Field) (value later : (field.layout d).Kept α) :
    (r.put field value).put field later = r.put field later := by
  cases field <;> rfl

/-- Values that are put in different parts may be put in either order. -/
theorem put_comm (r : Reservoir α d) {field other : Field} (different : other ≠ field)
    (value : (field.layout d).Kept α) (value' : (other.layout d).Kept α) :
    (r.put field value).put other value' = (r.put other value').put field value := by
  cases field <;> cases other <;> simp_all [put]

end Reservoir

/-! ## What is accepted -/

variable {α : Type} [Scalar α]

def Given.Filled (x : Given α) (n : Nat) : Prop :=
  ∃ values, x = some values ∧ values.size = n ∧ ∀ value ∈ values, Scalar.finite value = true

theorem Given.exists_ofFinite_iff {x : Given α} {n : Nat} :
    (∃ v, x.ofFinite n = .ok v) ↔ x.Filled n := by
  simp only [ofFinite_eq_ok_iff]
  constructor
  · rintro ⟨v, rfl, finite⟩
    exact ⟨v.toArray, rfl, v.size_toArray, finite⟩
  · rintro ⟨values, rfl, size, finite⟩
    exact ⟨⟨values, size⟩, rfl, finite⟩

namespace Operand

variable {x : Operand α} {rows cols : Nat}

theorem exists_toSheet_iff [MeasuredScalar α] (fits : rows * cols < wordLimit) :
    (∃ m, x.toSheet rows cols = .ok m) ↔ x.Filled rows cols := by
  by_cases present : x.isAbsent = false
  · have decided := decidedBy_toSheet present fits
    rw [decided.exists_ok_iff, filled_iff]
    simp only [List.forall_mem_cons]
    exact ⟨fun ⟨shape, finite, readable, _⟩ => ⟨present, shape, finite, readable⟩,
      fun ⟨_, shape, finite, readable⟩ => ⟨shape, finite, readable, nofun⟩⟩
  · cases x with
    | absent => exact ⟨nofun, fun filled => absurd filled.given present⟩
    | stored s => exact absurd rfl present
    | view v => exact absurd rfl present

theorem exists_toGrid_iff [MeasuredScalar α] (fits : rows * cols < wordLimit) :
    (∃ m, x.toGrid rows cols = .ok m) ↔ x.Filled rows cols := by
  rw [← exists_toSheet_iff fits]
  unfold toGrid
  simp only [Outcome.bind_eq_ok_iff, Outcome.pure_eq_ok_iff]
  exact ⟨fun ⟨_, m, kept, _⟩ => ⟨m, kept⟩, fun ⟨m, kept⟩ => ⟨_, m, kept, rfl⟩⟩

theorem read_of_toSheet {m : Sheet α rows cols} (accepted : x.toSheet rows cols = .ok m)
    (i : Fin rows) (j : Fin cols) : x.read i j = .ok (m.get i j) :=
  (shows_of_toSheet accepted).read_eq i j

theorem read_of_toGrid {m : Grid α rows cols} (accepted : x.toGrid rows cols = .ok m)
    (i : Fin rows) (j : Fin cols) : x.read i j = .ok (m.get i j) := by
  obtain ⟨sheet, shows, rfl⟩ := showsGrid_of_toGrid accepted
  rw [Sheet.get_toGrid]
  exact shows.read_eq i j

/-- The operand with a stored matrix put behind its reader. -/
def hidden : Operand α → Operand α
  | .absent => .absent
  | .stored s => .view (.ofMatrix s)
  | .view v => .view v

theorem hidden_read (x : Operand α) (i j : Nat) : x.hidden.read i j = x.read i j := by
  cases x <;> rfl

theorem hidden_filled_iff : x.hidden.Filled rows cols ↔ x.Filled rows cols := by
  cases x with
  | absent => rfl
  | stored s =>
      exact ⟨fun ⟨given, sameRows, sameCols, finite⟩ => ⟨given, sameRows, sameCols, finite⟩,
        fun ⟨given, sameRows, sameCols, finite⟩ => ⟨given, sameRows, sameCols, finite⟩⟩
  | view v => rfl

end Operand

namespace Layout

/-- What is handed over has the shape of the layout, and its entries can be read and are finite. -/
def Filled : (layout : Layout) → layout.Handed α → Prop
  | vector length, v => Given.Filled v length
  | grid rows cols, m => Operand.Filled m rows cols
  | sheet rows cols, m => Operand.Filled m rows cols

/-- What is kept has the entries that were handed over. -/
def Holds : (layout : Layout) → layout.Handed α → layout.Kept α → Prop
  | vector _, handed, v => handed = some (Vector.toArray v)
  | grid _ _, handed, m => ∀ i j, Operand.read handed i.val j.val = .ok (Grid.get m i j)
  | sheet _ _, handed, m => ∀ i j, Operand.read handed i.val j.val = .ok (Sheet.get m i j)

/-- What is handed over, with a stored matrix put behind its reader. -/
def hidden : (layout : Layout) → layout.Handed α → layout.Handed α
  | vector _, v => v
  | grid _ _, m => Operand.hidden m
  | sheet _ _, m => Operand.hidden m

/-- Checks what is handed over and makes it into what is kept. -/
def check : (layout : Layout) → layout.Handed α → Outcome α (layout.Kept α)
  | vector length, v => Given.ofFinite v length
  | grid rows cols, m => Operand.toGrid m rows cols
  | sheet rows cols, m => Operand.toSheet m rows cols

variable {layout : Layout} {handed : layout.Handed α} {kept kept' : layout.Kept α}

theorem exists_check_iff [MeasuredScalar α] (countable : layout.Countable) :
    (∃ kept, layout.check handed = .ok kept) ↔ layout.Filled handed := by
  cases layout with
  | vector length => exact Given.exists_ofFinite_iff
  | grid rows cols => exact Operand.exists_toGrid_iff countable
  | sheet rows cols => exact Operand.exists_toSheet_iff countable

theorem holds_of_check (accepted : layout.check handed = .ok kept) :
    layout.Holds handed kept := by
  cases layout with
  | vector length => exact (Given.ofFinite_eq_ok_iff.mp accepted).1
  | grid rows cols => exact Operand.read_of_toGrid accepted
  | sheet rows cols => exact Operand.read_of_toSheet accepted

theorem Holds.unique (countable : layout.Countable) (holds : layout.Holds handed kept)
    (holds' : layout.Holds handed kept') : kept = kept' := by
  cases layout with
  | vector length => exact Vector.toArray_inj.mp (Option.some.inj (holds.symm.trans holds'))
  | grid rows cols =>
      exact Grid.ext_get fun i j => Reading.ok.inj ((holds i j).symm.trans (holds' i j))
  | sheet rows cols =>
      obtain ⟨grid, rfl⟩ := Sheet.exists_grid countable kept
      obtain ⟨grid', rfl⟩ := Sheet.exists_grid countable kept'
      exact congrArg Sheet.whole
        (Grid.ext_get fun i j => Reading.ok.inj ((holds i j).symm.trans (holds' i j)))

theorem hidden_filled_iff : layout.Filled (layout.hidden handed) ↔ layout.Filled handed := by
  cases layout with
  | vector length => rfl
  | grid rows cols => exact Operand.hidden_filled_iff
  | sheet rows cols => exact Operand.hidden_filled_iff

theorem hidden_holds_iff :
    layout.Holds (layout.hidden handed) kept ↔ layout.Holds handed kept := by
  cases layout with
  | vector length => rfl
  | grid rows cols => simp only [Holds, hidden, Operand.hidden_read]
  | sheet rows cols => simp only [Holds, hidden, Operand.hidden_read]

end Layout

/-! ## Assignments -/

def Operation.assign (d : Dims) : (field : Field) → (field.layout d).Handed α → Operation α
  | .state, v => .assignState v
  | .input, v => .assignInput v
  | .bias, v => .assignBias v
  | .recurrent, m => .assignRecurrent m
  | .inputWeights, m => .assignInputWeights m
  | .readoutWeights, m => .assignReadoutWeights m

/-- The part holds what was handed over, and nothing else has changed. -/
structure Reservoir.Replaced {d : Dims} (field : Field) (handed : (field.layout d).Handed α)
    (r next : Reservoir α d) : Prop extends SameBesides field r next where
  holds : (field.layout d).Holds handed (next.part field)

namespace Machine

variable [Distances α] {d : Dims} {field : Field} {handed : (field.layout d).Handed α}

/-- An assignment checks what is handed over, whatever the machine holds, and puts it in its
place. -/
theorem perform_assign (bound : Nat) (m : Machine α d) (field : Field)
    (handed : (field.layout d).Handed α) :
    m.perform bound (.assign d field handed) =
      answer (m.adopt (Outcome.within (.task (.assign field))
        ((field.layout d).check handed >>= fun kept => return m.reservoir.put field kept))) := by
  cases field <;> rfl

theorem perform_assign_of_error {error : Error α}
    (refused : (field.layout d).check handed = .error error) (bound : Nat) (m : Machine α d) :
    m.perform bound (.assign d field handed) =
      (.done (.error (error.within (.task (.assign field)))), m) := by
  rw [perform_assign, refused]
  rfl

theorem perform_assign_of_ok {kept : (field.layout d).Kept α}
    (accepted : (field.layout d).check handed = .ok kept) (bound : Nat) (m : Machine α d) :
    m.perform bound (.assign d field handed) =
      (.done (.ok ()), { m with reservoir := m.reservoir.put field kept }) := by
  rw [perform_assign, accepted]
  rfl

/-- Assignments to different parts may be carried out in either order. -/
theorem performAll_assign_comm (bound : Nat) (m : Machine α d) {other : Field}
    (different : other ≠ field) (handed : (field.layout d).Handed α)
    (handed' : (other.layout d).Handed α) :
    m.performAll bound [.assign d other handed', .assign d field handed] =
      ((m.performAll bound [.assign d field handed, .assign d other handed']).1.reverse,
        (m.performAll bound [.assign d field handed, .assign d other handed']).2) := by
  unfold performAll performAll
  cases checked : (field.layout d).check handed with
  | error error =>
      cases checked' : (other.layout d).check handed' with
      | error error' =>
          simp only [perform_assign_of_error checked, perform_assign_of_error checked']
          rfl
      | ok kept' =>
          simp only [perform_assign_of_error checked, perform_assign_of_ok checked']
          rfl
  | ok kept =>
      cases checked' : (other.layout d).check handed' with
      | error error' =>
          simp only [perform_assign_of_ok checked, perform_assign_of_error checked']
          rfl
      | ok kept' =>
          simp only [perform_assign_of_ok checked, perform_assign_of_ok checked',
            m.reservoir.put_comm different]
          rfl

section Accepted

variable [MeasuredScalar α] (countable : d.Countable)

include countable

theorem perform_assign_of_not_filled (unfilled : ¬(field.layout d).Filled handed) (bound : Nat)
    (m : Machine α d) : ∃ error, m.perform bound (.assign d field handed) =
      (.done (.error error), m) := by
  cases checked : (field.layout d).check handed with
  | error error => exact ⟨_, perform_assign_of_error checked bound m⟩
  | ok kept =>
      exact absurd ((Layout.exists_check_iff (countable.layout field)).mp ⟨kept, checked⟩) unfilled

/-- What fills a part is put in its place, and so it is behind a reader. -/
theorem perform_assign_of_filled (filled : (field.layout d).Filled handed) (bound : Nat)
    (m : Machine α d) :
    ∃ next, m.reservoir.Replaced field handed next ∧
      m.perform bound (.assign d field handed) =
        (.done (.ok ()), { m with reservoir := next }) ∧
      m.perform bound (.assign d field ((field.layout d).hidden handed)) =
        (.done (.ok ()), { m with reservoir := next }) := by
  have fits := countable.layout field
  obtain ⟨kept, accepted⟩ := (Layout.exists_check_iff fits).mpr filled
  obtain ⟨kept', accepted'⟩ :=
    (Layout.exists_check_iff fits).mpr (Layout.hidden_filled_iff.mpr filled)
  have holds := Layout.holds_of_check accepted
  have holds' := Layout.hidden_holds_iff.mp (Layout.holds_of_check accepted')
  obtain rfl := holds.unique fits holds'
  refine ⟨m.reservoir.put field kept,
    { m.reservoir.sameBesides_put field kept with holds := ?_ },
    perform_assign_of_ok accepted bound m, perform_assign_of_ok accepted' bound m⟩
  rw [Reservoir.part_put]
  exact holds

/-- Of two assignments to one part the last one counts. -/
theorem perform_assign_twice {later : (field.layout d).Handed α}
    (filled : (field.layout d).Filled later) (handed : (field.layout d).Handed α) (bound : Nat)
    (m : Machine α d) :
    (m.perform bound (.assign d field handed)).2.perform bound (.assign d field later) =
      m.perform bound (.assign d field later) := by
  obtain ⟨last, accepted⟩ := (Layout.exists_check_iff (countable.layout field)).mpr filled
  cases checked : (field.layout d).check handed with
  | error error => rw [perform_assign_of_error checked]
  | ok kept =>
      rw [perform_assign_of_ok checked, perform_assign_of_ok accepted,
        perform_assign_of_ok accepted, Reservoir.put_put]

/-- A part is replaced exactly by what has its shape and can be read as finite entries. It then
holds these entries and nothing else has changed, and a stored matrix comes to the same as the
matrix behind a reader; what is refused changes nothing. So the last of two assignments to one part
counts, and assignments to different parts, accepted or not, may be carried out in either order. -/
theorem assign_replaces_one_part (bound : Nat) (m : Machine α d) (field : Field)
    (handed : (field.layout d).Handed α) :
    ((m.perform bound (.assign d field handed)).1 = .done (.ok ()) ↔
        (field.layout d).Filled handed) ∧
      (¬(field.layout d).Filled handed →
        (m.perform bound (.assign d field handed)).2 = m) ∧
      ((field.layout d).Filled handed →
        ∃ next, m.reservoir.Replaced field handed next ∧
          m.perform bound (.assign d field handed) =
            (.done (.ok ()), { m with reservoir := next }) ∧
          m.perform bound (.assign d field ((field.layout d).hidden handed)) =
            (.done (.ok ()), { m with reservoir := next })) ∧
      (∀ later, (field.layout d).Filled later →
        (m.perform bound (.assign d field handed)).2.perform bound (.assign d field later) =
          m.perform bound (.assign d field later)) ∧
      ∀ other, other ≠ field → ∀ handed',
        m.performAll bound [.assign d other handed', .assign d field handed] =
          ((m.performAll bound [.assign d field handed, .assign d other handed']).1.reverse,
            (m.performAll bound [.assign d field handed, .assign d other handed']).2) := by
  refine ⟨⟨fun accepted => ?_, fun filled => ?_⟩, fun unfilled => ?_,
    fun filled => perform_assign_of_filled countable filled bound m,
    fun later filled => perform_assign_twice countable filled handed bound m,
    fun other different handed' => performAll_assign_comm bound m different handed handed'⟩
  · by_contra unfilled
    obtain ⟨error, refused⟩ := perform_assign_of_not_filled countable unfilled bound m
    rw [refused] at accepted
    cases accepted
  · obtain ⟨next, -, performed, -⟩ := perform_assign_of_filled countable filled bound m
    rw [performed]
  · obtain ⟨error, refused⟩ := perform_assign_of_not_filled countable unfilled bound m
    rw [refused]

end Accepted

/-- In binary64, readout weights with a cell that cannot be read and readout weights that are
stored: the first are refused, and the second are put in place. -/
theorem assign_replaces_one_part_binary64 :
    let m : Machine Float ⟨1, 1, 2⟩ := ofReservoir (Reservoir.blank _ .standard)
    let faulty : Operand Float :=
      .view ⟨1, 2, fun _ j => if j = 1 then .error (.of .unreadable) else .ok 0.5⟩
    let weights : Operand Float := .stored ⟨1, 2, .whole ⟨#v[1, -2]⟩⟩
    Dims.Countable ⟨1, 1, 2⟩ ∧ ¬faulty.Filled 1 2 ∧
      (m.perform 1 (.assignReadoutWeights faulty)).2 = m ∧ weights.Filled 1 2 ∧
      (m.perform 1 (.assignReadoutWeights weights)).2.reservoir.readoutWeights.get 0 1 = -2 ∧
      m.reservoir.SameBesides .readoutWeights
        (m.perform 1 (.assignReadoutWeights weights)).2.reservoir := by
  intro m faulty weights
  have countable : Dims.Countable ⟨1, 1, 2⟩ := ⟨by decide, by decide, by decide⟩
  have unfilled : ¬faulty.Filled 1 2 := fun filled => by
    obtain ⟨value, read, -⟩ := filled.finite 0 1 (by decide) (by decide)
    cases read
  have shown : weights.Shows (.whole ⟨#v[1, -2]⟩ : Sheet Float 1 2) := rfl
  have finite : ∀ (i : Fin 1) (j : Fin 2),
      Scalar.finite ((.whole ⟨#v[1, -2]⟩ : Sheet Float 1 2).get i j) = true := by
    with_unfolding_all decide
  have filled : weights.Filled 1 2 :=
    ⟨rfl, rfl, rfl, fun i j inRows inCols =>
      ⟨_, shown.read_eq ⟨i, inRows⟩ ⟨j, inCols⟩, finite ⟨i, inRows⟩ ⟨j, inCols⟩⟩⟩
  have refused := (assign_replaces_one_part countable 1 m .readoutWeights faulty).2.1 unfilled
  obtain ⟨next, replaced, performed, -⟩ :=
    (assign_replaces_one_part countable 1 m .readoutWeights weights).2.2.1 filled
  have left : (m.perform 1 (.assignReadoutWeights weights)).2.reservoir = next :=
    congrArg (fun result => result.2.reservoir) performed
  have cell : weights.read 0 1 = .ok (next.readoutWeights.get 0 1) := replaced.holds 0 1
  rw [left]
  exact ⟨countable, unfilled, refused, filled, (Reading.ok.inj cell).symm,
    replaced.toSameBesides⟩

end Machine

end EchoState
