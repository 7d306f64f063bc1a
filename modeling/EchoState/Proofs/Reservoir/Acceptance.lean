import EchoState.Proofs.Matrix.Acceptance
import EchoState.Proofs.Reservoir.Trace
import EchoState.Proofs.Scalar.Float

/-!
# Operands of a fixed point

What a reservoir with a chosen fixed point is made of, and which fault is reported when there are
several. The operands are suitable when they fill the shapes of one reservoir with finite values and
the fixed point lies inside the domain of the inverse activation. The constructor accepts exactly
suitable operands, and otherwise reports the first demand, in a fixed order, that is not met: a
fault behind it does not matter, not even a cell that cannot be read before one that is not finite.
-/

namespace EchoState

variable {α : Type} [Scalar α]

/-! ## Suitable operands -/

/-- The operand has the shape, and each of its cells can be read and is finite. -/
structure Operand.Filled (x : Operand α) (rows cols : Nat) : Prop where
  given : x.isAbsent = false
  rows_eq : x.rows = rows
  cols_eq : x.cols = cols
  finite : ∀ i j : Nat, i < rows → j < cols →
    ∃ value, x.read i j = .ok value ∧ Scalar.finite value = true

/-- The operands fill the shapes of a reservoir of the dimensions with finite values, and the fixed
point lies inside the domain of the inverse activation. -/
structure Dims.Suit (d : Dims) (recurrent inputWeights readoutWeights : Operand α)
    (point input : Given α) : Prop where
  recurrent : recurrent.Filled d.latents d.latents
  inputWeights : inputWeights.Filled d.latents d.inputs
  readoutWeights : readoutWeights.Filled d.outputs d.latents
  point : ∃ v : Vector α d.latents, point = some v.toArray ∧
    ∀ i, Scalar.finite (v.get i) = true ∧ Scalar.lt (Scalar.abs (v.get i)) 1 = true
  input : ∃ v : Vector α d.inputs, input = some v.toArray ∧ ∀ i, Scalar.finite (v.get i) = true

def Dims.reported (recurrent inputWeights readoutWeights : Operand α) : Dims :=
  ⟨inputWeights.cols.toNat, readoutWeights.rows.toNat, recurrent.rows.toNat⟩

def Demand.dimensions (inputs outputs latents : Int) : Demand :=
  .orElse (0 ≤ inputs ∧ 0 ≤ outputs ∧ 0 ≤ latents) .negativeDimension

/-- What is demanded of the operands of a fixed point, in order. -/
def fixedPointDemands (recurrent inputWeights readoutWeights : Operand α) (point input : Given α) :
    List Demand :=
  [ .given recurrent, .given inputWeights, .given readoutWeights
  , .square recurrent
  , .dimensions inputWeights.cols readoutWeights.rows recurrent.rows
  , .finiteCells recurrent, .readableCells recurrent
  , .shape inputWeights recurrent.rows inputWeights.cols
  , .finiteCells inputWeights, .readableCells inputWeights
  , .shape readoutWeights readoutWeights.rows recurrent.rows
  , .finiteCells readoutWeights, .readableCells readoutWeights
  , .givenVector point, .length point recurrent.rows, .finiteEntries point
  , .givenVector input, .length input inputWeights.cols, .finiteEntries input
  , .entriesInside point ]

theorem Operand.filled_iff {x : Operand α} {rows cols : Nat} :
    x.Filled rows cols ↔ (Demand.given x).met ∧ (Demand.shape x rows cols).met ∧
      (Demand.finiteCells x).met ∧ (Demand.readableCells x).met := by
  constructor
  · rintro ⟨given, rowsEq, colsEq, finite⟩
    have cell {i j : Nat} (inside : x.Inside i j) :
        ∃ value, x.read i j = .ok value ∧ Scalar.finite value = true := by
      obtain ⟨inRows, inCols⟩ := inside
      rw [rowsEq] at inRows
      rw [colsEq] at inCols
      exact finite i j (Int.ofNat_lt.mp inRows) (Int.ofNat_lt.mp inCols)
    refine ⟨given, ⟨rowsEq, colsEq⟩, fun i j inside => ?_, fun i j inside => ?_⟩
    · obtain ⟨value, read, whole⟩ := cell inside
      rw [read]
      exact whole
    · obtain ⟨value, read, _⟩ := cell inside
      exact ⟨value, read⟩
  · rintro ⟨given, ⟨rowsEq, colsEq⟩, finite, readable⟩
    refine ⟨given, rowsEq, colsEq, fun i j inRows inCols => ?_⟩
    have inside : x.Inside i j := by
      unfold Operand.Inside
      rw [rowsEq, colsEq]
      exact ⟨Int.ofNat_lt.mpr inRows, Int.ofNat_lt.mpr inCols⟩
    obtain ⟨value, read⟩ := readable i j inside
    have whole := finite i j inside
    rw [read] at whole
    exact ⟨value, read, whole⟩

/-- A vector of the length that is finite, as a demand and as a vector. -/
theorem Given.exists_finite_iff {x : Given α} {n : Nat} :
    (∃ v : Vector α n, x = some v.toArray ∧ ∀ i, Scalar.finite (v.get i) = true) ↔
      (Demand.givenVector x).met ∧ (Demand.length x n).met ∧ (Demand.finiteEntries x).met := by
  constructor
  · rintro ⟨v, rfl, finite⟩
    refine ⟨rfl, congrArg Nat.cast v.size_toArray, ?_⟩
    rintro _ ⟨⟩
    exact (allFinite_vector_iff v).mpr finite
  · rintro ⟨given, length, finite⟩
    obtain ⟨values, rfl⟩ := Option.isSome_iff_exists.mp given
    let v : Vector α n := ⟨values, Int.ofNat_inj.mp length⟩
    exact ⟨v, rfl, (allFinite_vector_iff v).mp (finite values rfl)⟩

variable {recurrent inputWeights readoutWeights : Operand α} {point input : Given α}

/-- Operands are suitable for some dimensions exactly when every demand is met. -/
theorem exists_suit_iff :
    (∃ d : Dims, d.Suit recurrent inputWeights readoutWeights point input) ↔
      ∀ demand ∈ fixedPointDemands recurrent inputWeights readoutWeights point input,
        demand.met := by
  simp only [fixedPointDemands, List.forall_mem_cons]
  constructor
  · rintro ⟨d, suit⟩
    obtain ⟨aGiven, ⟨aRows, aCols⟩, aFinite, aReadable⟩ := Operand.filled_iff.mp suit.recurrent
    obtain ⟨bGiven, ⟨bRows, bCols⟩, bFinite, bReadable⟩ := Operand.filled_iff.mp suit.inputWeights
    obtain ⟨wGiven, ⟨wRows, wCols⟩, wFinite, wReadable⟩ := Operand.filled_iff.mp suit.readoutWeights
    obtain ⟨v, rfl, entries⟩ := suit.point
    obtain ⟨pGiven, pLength, pFinite⟩ := Given.exists_finite_iff.mp ⟨v, rfl, fun i => (entries i).1⟩
    obtain ⟨xGiven, xLength, xFinite⟩ := Given.exists_finite_iff.mp suit.input
    rw [aRows, bCols, wRows]
    refine ⟨aGiven, bGiven, wGiven, aRows.trans aCols.symm, ?dimensions, aFinite, aReadable,
      ⟨bRows, bCols⟩, bFinite, bReadable, ⟨wRows, wCols⟩, wFinite, wReadable, pGiven, pLength,
      pFinite, xGiven, xLength, xFinite, ?inside, nofun⟩
    case dimensions => exact ⟨Int.natCast_nonneg _, Int.natCast_nonneg _, Int.natCast_nonneg _⟩
    case inside =>
      rintro _ ⟨⟩ value isEntry
      obtain ⟨i, within, rfl⟩ := Vector.mem_iff_getElem.mp ((Vector.mem_toArray_iff _ v).mp isEntry)
      exact (entries ⟨i, within⟩).2
  · rintro ⟨aGiven, bGiven, wGiven, square, ⟨inputs, outputs, latents⟩, aFinite, aReadable, bShape,
      bFinite, bReadable, wShape, wFinite, wReadable, pGiven, pLength, pFinite, xGiven, xLength,
      xFinite, inside, -⟩
    obtain ⟨k, bCols⟩ := Int.eq_ofNat_of_zero_le inputs
    obtain ⟨m, wRows⟩ := Int.eq_ofNat_of_zero_le outputs
    obtain ⟨n, aRows⟩ := Int.eq_ofNat_of_zero_le latents
    rw [aRows] at bShape wShape pLength
    rw [bCols] at bShape xLength
    rw [wRows] at wShape
    have aShape : (Demand.shape recurrent n n).met := ⟨aRows, square.symm.trans aRows⟩
    obtain ⟨v, rfl, finite⟩ := Given.exists_finite_iff.mpr ⟨pGiven, pLength, pFinite⟩
    have entries (i : Fin n) : Scalar.lt (Scalar.abs (v.get i)) 1 = true :=
      inside _ rfl _ ((Vector.mem_toArray_iff _ v).mpr (Vector.getElem_mem i.isLt))
    refine ⟨⟨k, m, n⟩, ?_, ?_, ?_, ?_, ?_⟩
    · exact Operand.filled_iff.mpr ⟨aGiven, aShape, aFinite, aReadable⟩
    · exact Operand.filled_iff.mpr ⟨bGiven, bShape, bFinite, bReadable⟩
    · exact Operand.filled_iff.mpr ⟨wGiven, wShape, wFinite, wReadable⟩
    · exact ⟨v, rfl, fun i => ⟨finite i, entries i⟩⟩
    · exact Given.exists_finite_iff.mpr ⟨xGiven, xLength, xFinite⟩

namespace Reservoir

variable {d : Dims}

theorem decidedBy_create (inputs outputs latents : Int) (settings : Settings α) :
    (create inputs outputs latents settings).DecidedBy [.dimensions inputs outputs latents] := by
  apply Outcome.DecidedBy.of_or
  unfold create Dims.ofInts?
  by_cases negative : inputs < 0 ∨ outputs < 0 ∨ latents < 0
  · rw [if_pos negative]
    exact .inr ⟨by omega, _, rfl, rfl⟩
  · rw [if_neg negative]
    exact .inl ⟨by omega, _, rfl⟩

theorem dims_of_create {inputs outputs latents : Int} {settings : Settings α} {r : AnyReservoir α}
    (created : create inputs outputs latents settings = .ok r) :
    inputs = r.dims.inputs ∧ outputs = r.dims.outputs ∧ latents = r.dims.latents := by
  unfold create Dims.ofInts? at created
  by_cases negative : inputs < 0 ∨ outputs < 0 ∨ latents < 0
  · rw [if_pos negative] at created
    cases created
  · rw [if_neg negative] at created
    cases created
    exact ⟨by simp; omega, by simp; omega, by simp; omega⟩

omit [Scalar α] in
/-- A part that is replaced after its check is decided by what the check demands. -/
theorem decidedBy_replace {β : Type} {note : Note α} {check : Outcome α β} {demands : List Demand}
    {put : β → Reservoir α d} (decided : check.DecidedBy demands) :
    (Outcome.within note (check >>= fun part => return put part)).DecidedBy demands :=
  decided.bind_pure.within note

/-- The choice of the bias asks for a point inside the domain. -/
theorem decidedBy_anchorWithin [MeasuredScalar α] (r : Reservoir α d) {v : Vector α d.latents}
    (finite : AllFinite v.toArray) :
    (r.anchorWithin v).DecidedBy [.entriesInside (some v.toArray)] := by
  apply Outcome.DecidedBy.of_or
  have numbers (i : Fin d.latents) := (allFinite_vector_iff v).mp finite i
  unfold anchorWithin
  cases found : v.findFinIdx? fun value => Scalar.le 1 (Scalar.abs value) with
  | none =>
      rw [Vector.findFinIdx?_eq_none_iff] at found
      refine .inl ⟨?_, _, rfl⟩
      rintro _ ⟨⟩ value isEntry
      have notLarge := found value ((Vector.mem_toArray_iff _ v).mp isEntry)
      exact Scalar.abs_lt_one (finite value isEntry) (Bool.not_eq_true _ ▸ notLarge)
  | some i =>
      have large := (findFinIdx?_eq_some_iff.mp found).1
      refine .inr ⟨fun inside => ?_, _, rfl, rfl⟩
      have entry := inside _ rfl _ ((Vector.mem_toArray_iff _ v).mpr (Vector.getElem_mem i.isLt))
      exact (OrderedScalar.lt_iff.mp entry).2 large

variable [MeasuredScalar α]

/-- The checks of the constructor in sequence, each with what it demands. -/
theorem decidedBy_ofFixedPoint (settings : Settings α)
    (countable : (Dims.reported recurrent inputWeights readoutWeights).Countable) :
    (ofFixedPoint recurrent inputWeights readoutWeights point input settings).DecidedBy
      (fixedPointDemands recurrent inputWeights readoutWeights point input) := by
  unfold ofFixedPoint fixedPointDemands
  apply Outcome.DecidedBy.within
  refine recurrent.decidedBy_checkPresent.bind fun _ aPresent => ?_
  refine inputWeights.decidedBy_checkPresent.bind fun _ bPresent => ?_
  refine readoutWeights.decidedBy_checkPresent.bind fun _ wPresent => ?_
  refine recurrent.decidedBy_checkSquare.bind fun _ squared => ?_
  refine (decidedBy_create _ _ _ settings).bind fun made created => ?_
  obtain ⟨bCols, wRows, aRows⟩ := dims_of_create created
  obtain ⟨d, blank⟩ := made
  dsimp only at bCols wRows aRows ⊢
  have countable : d.Countable := by
    rw [Dims.reported, bCols, wRows, aRows] at countable
    exact countable
  have aShape : (Demand.shape recurrent d.latents d.latents).met :=
    ⟨aRows, (Operand.rows_eq_cols_of_checkSquare squared).symm.trans aRows⟩
  rw [aRows, bCols, wRows]
  refine (decidedBy_replace ((Outcome.DecidedBy.cons_iff aShape).mp
    (recurrent.decidedBy_toGrid (Operand.isAbsent_of_checkPresent aPresent)
      countable.recurrent))).bind fun withRecurrent _ => ?_
  refine (decidedBy_replace (inputWeights.decidedBy_toGrid
    (Operand.isAbsent_of_checkPresent bPresent) countable.inputWeights)).bind
      fun withInputWeights _ => ?_
  refine (decidedBy_replace (readoutWeights.decidedBy_toSheet
    (Operand.isAbsent_of_checkPresent wPresent) countable.readoutWeights)).bind
      fun withReadoutWeights _ => ?_
  refine ((point.decidedBy_ofFinite _).within _).bind fun state accepted => ?_
  refine (decidedBy_replace (input.decidedBy_ofFinite _)).bind fun withInput _ => ?_
  obtain ⟨rfl, finite⟩ := Given.ofFinite_eq_ok_iff.mp (Outcome.within_eq_ok_iff.mp accepted)
  exact (withInput.decidedBy_anchorWithin finite).bind_pure

/-- A reservoir with a chosen fixed point is made exactly from operands that suit some dimensions;
otherwise the cause of the first demand that is not met is reported. The dimensions are such that
the cells of every matrix can be counted. -/
theorem ofFixedPoint_accepts_exactly (recurrent inputWeights readoutWeights : Operand α)
    (point input : Given α) (settings : Settings α)
    (countable : (Dims.reported recurrent inputWeights readoutWeights).Countable) :
    ((∃ r, ofFixedPoint recurrent inputWeights readoutWeights point input settings = .ok r) ↔
      ∃ d : Dims, d.Suit recurrent inputWeights readoutWeights point input) ∧
    ∀ error, ofFixedPoint recurrent inputWeights readoutWeights point input settings =
        .error error →
      ∃ demand, FirstUnmet demand
          (fixedPointDemands recurrent inputWeights readoutWeights point input) ∧
        demand.reports error.cause := by
  have decided : (ofFixedPoint recurrent inputWeights readoutWeights point input settings).DecidedBy
      (fixedPointDemands recurrent inputWeights readoutWeights point input) :=
    decidedBy_ofFixedPoint settings countable
  exact ⟨decided.exists_ok_iff.trans exists_suit_iff.symm, fun _ => decided.exists_first_of_error⟩

/-- Recurrent weights whose first cell cannot be read and whose last comes with an error and is no
number, input weights of another shape, a point outside the domain and no input: what is reported is
the cell that is no number. -/
theorem ofFixedPoint_accepts_exactly_faulty :
    let recurrent : Operand Float := .view ⟨2, 2, fun i j =>
      if i + j = 0 then .error (.of .unreadable)
      else if i + j = 2 then .failed Scalar.nan (.of .unreadable) else .ok 0.5⟩
    let inputWeights : Operand Float := .stored ⟨1, 1, .whole ⟨#v[0.25]⟩⟩
    let readoutWeights : Operand Float := .stored ⟨1, 2, .whole ⟨#v[1, 1]⟩⟩
    let demands := fixedPointDemands recurrent inputWeights readoutWeights (some #[2, 0]) none
    (Dims.reported recurrent inputWeights readoutWeights).Countable ∧
      (¬∃ d : Dims, d.Suit recurrent inputWeights readoutWeights (some #[2, 0]) none) ∧
      ∃ error demand, ofFixedPoint recurrent inputWeights readoutWeights (some #[2, 0]) none
          .standard = .error error ∧
        FirstUnmet demand demands ∧ demand.reports error.cause ∧ error.cause = .notFinite := by
  intro recurrent inputWeights readoutWeights demands
  have countable : (Dims.reported recurrent inputWeights readoutWeights).Countable :=
    ⟨by decide, by decide, by decide⟩
  obtain ⟨accepts, refuses⟩ := ofFixedPoint_accepts_exactly recurrent inputWeights readoutWeights
    (some #[2, 0]) none .standard countable
  have failed : ofFixedPoint recurrent inputWeights readoutWeights (some #[2, 0]) none .standard =
      .error ⟨[.task .createFixedPoint, .task (.assign .recurrent), .scanned 1 1], .notFinite⟩ := by
    with_unfolding_all rfl
  obtain ⟨demand, first, reported⟩ := refuses _ failed
  refine ⟨countable, fun suitable => ?_, _, demand, failed, first, reported, rfl⟩
  obtain ⟨r, built⟩ := accepts.mpr suitable
  rw [failed] at built
  cases built

end Reservoir

end EchoState
