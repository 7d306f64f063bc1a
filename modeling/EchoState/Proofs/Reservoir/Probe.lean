import EchoState.Proofs.Matrix.Selector
import EchoState.Proofs.Reservoir.Assignment
import EchoState.Proofs.Reservoir.Samples

/-!
# Probes

A selector is a matrix that shows: a product with it is what it is multiplied with, cut off at its
number of rows or followed by zeros, and a product with the identity matrix is the other factor.
Only the signs of zeros are lost. So a reservoir whose readout weights are a selector reads out its
latents, and a simulation records them.
-/

namespace EchoState

variable {α : Type} [Scalar α] {rows cols : Nat}

/-- The leading entries of a vector without the signs of zeros, and zeros beyond its end. -/
def leading (rows : Nat) (x : Vector α cols) : Vector α rows :=
  Vector.ofFn fun i => Scalar.plain (Matrix.padded x.get i)

theorem Sheet.get_column (m : Sheet α rows cols) (j : Fin cols) :
    (m.column j).get = fun i => m.get i j :=
  funext fun i => m.getElem_column j i i.isLt

theorem Matrix.exists_identity (square : cols * cols < wordLimit) :
    ∃ unit : Sheet α cols cols, identity cols = .ok ⟨cols, cols, unit⟩ ∧
      ∀ i j, unit.get i j = selectorCell i.val j.val := by
  refine ⟨_, identity_natCast cols, fun i j => ?_⟩
  rw [Sheet.get_ofFn square]
  exact if_congr Fin.ext_iff rfl rfl

section Products

variable [UnitScalar α] {probe : Sheet α rows cols}
  (cells : ∀ i j, probe.get i j = Matrix.selectorCell i.val j.val)

include cells

theorem mulVec_of_selectorCells {x : Vector α cols} (finite : AllFinite x.toArray) :
    probe.mulVec x = leading rows x :=
  congrArg Vector.ofFn (funext fun i => Matrix.rowDot_of_selectorCells cells finite i)

theorem column_mul_of_selectorCells {count : Nat} (fits : rows * count < wordLimit)
    {b : Sheet α cols count} {j : Fin count} (finite : AllFinite (b.column j).toArray) :
    (probe.mul b).column j = leading rows (b.column j) := by
  have entries := (allFinite_vector_iff _).mp finite
  unfold leading
  rw [Sheet.get_column] at entries ⊢
  refine congrArg Vector.ofFn (funext fun i => ?_)
  rw [Sheet.get_mul fits, Matrix.cellSum_of_selectorCells cells entries]

end Products

/-! ## Probed reservoirs -/

namespace Machine

section Driven

variable {d : Dims} {m : Machine α d} {samples : List (Vector α d.inputs)}

/-- The single steps along samples over which the integration does not diverge lead through the
states of the flow. -/
theorem state_driven (finite : ∀ x ∈ samples, AllFinite x.toArray)
    (stays : ¬m.reservoir.Diverges samples) {t : Nat} (inside : t < samples.length) :
    (m.driven ((samples.map fun x => some x.toArray).take t)).reservoir.state =
      m.reservoir.flowAlong m.reservoir.state (samples.take t) := by
  obtain ⟨accepted, checked, before⟩ := m.reservoir.exists_accepted finite
  have states (s : Nat) (upTo : s ≤ t) :
      AllFinite (m.reservoir.stateBefore accepted s).toArray := by
    by_contra notFinite
    rw [before] at notFinite
    exact stays ⟨s, by omega, notFinite⟩
  rw [reservoir_driven checked (by rw [List.length_map]; omega) states]
  exact before t

end Driven

/-- A machine that shows its latents: its readout is the leading entries of its state, and where the
integration over samples does not diverge, a simulation records these of the states to which single
steps lead. -/
structure ShowsLatents {d : Dims} (m : Machine α d) : Prop where
  readout : AllFinite m.reservoir.state.toArray →
    m.reservoir.readout = leading d.outputs m.reservoir.state
  record : ∀ samples : List (Vector α d.inputs), (∀ x ∈ samples, AllFinite x.toArray) →
    ¬m.reservoir.Diverges samples → d.outputs * samples.length < wordLimit →
    ∃ sheet : Sheet α d.outputs samples.length,
      (m.simulate (samples.map fun x => some x.toArray)).1 =
        .ok ⟨d.outputs, samples.length, sheet⟩ ∧
      ∀ t, sheet.column t = leading d.outputs
        (m.driven ((samples.map fun x => some x.toArray).take t)).reservoir.state

theorem showsLatents [UnitScalar α] {d : Dims} {m : Machine α d}
    (cells : ∀ i j, m.reservoir.readoutWeights.get i j = Matrix.selectorCell i.val j.val) :
    m.ShowsLatents where
  readout := mulVec_of_selectorCells cells
  record samples finite stays fits := by
    refine ⟨_, (simulate_of_not_diverges finite rfl stays).1, fun t => ?_⟩
    let states : Sheet α d.latents samples.length := .whole (.ofFn fun i t =>
      (m.reservoir.flowAlong m.reservoir.state (samples.take t)).get i)
    have column : states.column t =
        m.reservoir.flowAlong m.reservoir.state (samples.take t) := by
      apply Vector.ext
      intro i inside
      exact (states.getElem_column t i inside).trans (Grid.get_ofFn ..)
    have finiteColumn : AllFinite (states.column t).toArray := by
      by_contra notFinite
      rw [column] at notFinite
      exact stays ⟨t, t.isLt, notFinite⟩
    rw [state_driven finite stays t.isLt, ← column]
    exact column_mul_of_selectorCells cells fits finiteColumn

end Machine

/-! ## Selectors -/

/-- What a selector and the identity matrix it is made of do in products with finite factors, and as
the readout weights of a reservoir. -/
structure Selects [Distances α] (probe : Sheet α rows cols) (unit : Sheet α cols cols) : Prop where
  cells : ∀ i j, probe.get i j = if i.val = j.val then 1 else 0
  vectorProduct : ∀ x : Vector α cols, AllFinite x.toArray →
    (Operand.stored ⟨rows, cols, probe⟩).vectorProduct (some x.toArray) =
      .ok (leading rows x).toArray
  product : ∀ (count : Nat) (b : Sheet α cols count), rows * count < wordLimit →
    AllFinite b.values → ∃ product : Sheet α rows count,
      (Operand.stored ⟨rows, cols, probe⟩).product (.stored ⟨cols, count, b⟩) =
        .ok ⟨rows, count, product⟩ ∧
      ∀ j, product.column j = leading rows (b.column j)
  identity : ∀ (height : Nat) (a : Sheet α height cols), height * cols < wordLimit →
    AllFinite a.values → ∃ product : Sheet α height cols,
      (Operand.stored ⟨height, cols, a⟩).product (.stored ⟨cols, cols, unit⟩) =
        .ok ⟨height, cols, product⟩ ∧
      ∀ i j, product.get i j = Scalar.plain (a.get i j)
  readout : ∀ (inputs bound : Nat) (m : Machine α ⟨inputs, rows, cols⟩), ∃ probed,
    m.perform bound (.assignReadoutWeights (.stored ⟨rows, cols, probe⟩)) =
        (.done (.ok ()), probed) ∧
      Reservoir.SameBesides .readoutWeights m.reservoir probed.reservoir ∧ probed.ShowsLatents

/-- The selector of every shape whose cells can be counted, and whose identity matrix has cells that
can be counted, is made and selects: wide, square or tall, and also without rows or columns. -/
theorem selector_selects [Distances α] [UnitScalar α] (square : cols * cols < wordLimit)
    (fits : rows * cols < wordLimit) :
    ∃ (probe : Sheet α rows cols) (unit : Sheet α cols cols),
      Matrix.selector rows cols = .ok ⟨rows, cols, probe⟩ ∧
        Matrix.identity cols = .ok ⟨cols, cols, unit⟩ ∧ Selects probe unit := by
  obtain ⟨probe, made, finite, cells⟩ :=
    Matrix.selector_eq_ok (α := α) UnitScalar.finite_one square fits
  obtain ⟨unit, unitMade, unitCells⟩ := Matrix.exists_identity (α := α) square
  refine ⟨probe, unit, made, unitMade, cells, fun x finite => ?vectorProduct,
    fun count b fits finite => ?product, fun height a fits finite => ?identity,
    fun inputs bound m => ?readout⟩
  case vectorProduct =>
    unfold Operand.vectorProduct
    dsimp only
    rw [Given.ofLength_toArray, Outcome.ok_bind, mulVec_of_selectorCells cells finite]
    rfl
  case product =>
    refine ⟨_, Operand.product_stored probe b, fun j => ?_⟩
    refine column_mul_of_selectorCells cells fits ((allFinite_vector_iff _).mpr fun k => ?_)
    rw [Sheet.get_column]
    exact Sheet.finite_get MeasuredScalar.finite_zero finite k j
  case identity =>
    refine ⟨_, Operand.product_stored a unit, fun i j => ?_⟩
    have entries := Sheet.finite_get MeasuredScalar.finite_zero finite i
    rw [Sheet.get_mul fits, Matrix.cellSum_of_identity unitCells entries]
  case readout =>
    have accepted : (Field.layout ⟨inputs, rows, cols⟩ .readoutWeights).check
        (.stored ⟨rows, cols, probe⟩) = .ok probe := Operand.toSheet_stored finite
    exact ⟨_, Machine.perform_assign_of_ok accepted bound m, Reservoir.sameBesides_put _ _ _,
      Machine.showsLatents cells⟩

/-- A tall selector in binary64 takes the sign from a zero, keeps a number and puts a zero below. -/
theorem selector_selects_binary64 :
    2 * 2 < wordLimit ∧ 3 * 2 < wordLimit ∧
      ∃ probe : Sheet Float 3 2, Matrix.selector 3 2 = .ok ⟨3, 2, probe⟩ ∧
        (Operand.stored ⟨3, 2, probe⟩).vectorProduct (some #[-0, 1.5]) = .ok #[0, 1.5, 0] := by
  have square : 2 * 2 < wordLimit := by decide
  have fits : 3 * 2 < wordLimit := by decide
  obtain ⟨probe, unit, made, -, selects⟩ := selector_selects (α := Float) square fits
  have shown : leading 3 #v[(-0 : Float), 1.5] = #v[0, 1.5, 0] := by with_unfolding_all decide
  refine ⟨square, fits, probe, made, ?_⟩
  rw [selects.vectorProduct #v[-0, 1.5] (by with_unfolding_all decide), shown]

end EchoState
