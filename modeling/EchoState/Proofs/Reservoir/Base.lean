import EchoState.Proofs.Reservoir.Buffers
import EchoState.Proofs.Reservoir.Invariant
import EchoState.Proofs.Reservoir.Placement
import EchoState.Proofs.Reservoir.Rest

/-!
# Base reservoirs

A base reservoir is built from uniform numbers below one. What it makes of them is always accepted:
the input weights are finite and the fixed point lies within one half of zero. Its bias is the
inverse activation of the fixed point, since neither weights nor input contribute to it, so the
reservoir starts at rest and settles by its second step, and so does a reservoir of zeros.
-/

namespace EchoState

variable {α : Type}

/-! ## Accepted parts -/

theorem Sheet.values_ofBuffer {rows cols : Nat} (buffer : Vector α (bufferLength rows cols)) :
    (ofBuffer buffer : Sheet α rows cols).values = buffer.toArray := by
  unfold ofBuffer
  split
  · rfl
  · rfl

variable [Scalar α]

theorem Sheet.firstNonFinite?_eq_none {rows cols : Nat} {m : Sheet α rows cols}
    (finite : AllFinite m.values) : m.firstNonFinite? = none := by
  cases m with
  | whole grid =>
      exact Option.map_eq_none_iff.mpr (Reservoir.findFinIdx?_eq_none_of_allFinite finite)
  | folded buffer tooMany =>
      exact Option.map_eq_none_iff.mpr (Reservoir.findFinIdx?_eq_none_of_allFinite finite)

theorem Operand.toSheet_stored {rows cols : Nat} {m : Sheet α rows cols}
    (finite : AllFinite m.values) : (stored ⟨rows, cols, m⟩).toSheet rows cols = .ok m := by
  unfold toSheet checkFinite
  dsimp only
  rw [dif_pos ⟨rfl, rfl⟩, Sheet.firstNonFinite?_eq_none finite, Sheet.cast_rfl]
  rfl

theorem Operand.toGrid_stored {rows cols : Nat} {m : Sheet α rows cols}
    (finite : AllFinite m.values) : (stored ⟨rows, cols, m⟩).toGrid rows cols = .ok m.toGrid := by
  unfold toGrid
  rw [toSheet_stored finite]
  rfl

/-- As many values as a shape has cells are kept in a sheet, which is searched before it is given
out. -/
theorem Matrix.exists_ofValues {rows cols : Nat} {values : Array α}
    (filled : (values.size : Int) = wrapped (rows * cols)) :
    ∃ sheet : Sheet α rows cols, sheet.values = values ∧
      (sheet.firstNonFinite? = none → ofValues rows cols values = .ok ⟨rows, cols, sheet⟩) ∧
      ∀ i j, sheet.firstNonFinite? = some (i, j) →
        ofValues rows cols values = .error ⟨[.cell .set i j], .notFinite⟩ := by
  have length : values.size = bufferLength rows cols := by
    simp only [bufferLength]
    omega
  refine ⟨.ofBuffer ⟨values, length⟩, Sheet.values_ofBuffer _, fun searched => ?_,
    fun i j searched => ?_⟩
  all_goals
    unfold ofValues
    rw [dimensions_natCast, Outcome.ok_bind]
    dsimp only
    rw [dif_pos filled, searched]

/-- As many finite values as a shape has cells make a matrix of that shape. -/
theorem Matrix.ofValues_of_finite {rows cols : Nat} {values : Array α}
    (fits : rows * cols < wordLimit) (size : values.size = rows * cols)
    (finite : AllFinite values) :
    ∃ sheet : Sheet α rows cols, sheet.values = values ∧
      ofValues rows cols values = .ok ⟨rows, cols, sheet⟩ := by
  have filled : (values.size : Int) = wrapped (rows * cols) := by
    rw [wrapped_of_lt fits, size]
  obtain ⟨sheet, kept, made, -⟩ := exists_ofValues filled
  exact ⟨sheet, kept, made (Sheet.firstNonFinite?_eq_none (kept.symm ▸ finite))⟩

namespace Reservoir

variable {d : Dims}

/-- A reservoir of zeros with its weights and its input put in place. -/
def placed (settings : Settings α) (recurrent : Sheet α d.latents d.latents)
    (inputWeights : Sheet α d.latents d.inputs) (readoutWeights : Sheet α d.outputs d.latents)
    (input : Vector α d.inputs) : Reservoir α d :=
  { blank d settings with
    recurrent := recurrent.toGrid
    inputWeights := inputWeights.toGrid
    readoutWeights
    input }

/-- Finite parts of matching shapes are accepted, with a fixed point inside the domain of the
inverse activation. -/
theorem ofFixedPoint_of_finite {settings : Settings α} {recurrent : Sheet α d.latents d.latents}
    {inputWeights : Sheet α d.latents d.inputs} {readoutWeights : Sheet α d.outputs d.latents}
    {point : Vector α d.latents} {input : Vector α d.inputs}
    (recurrentFinite : AllFinite recurrent.values)
    (inputWeightsFinite : AllFinite inputWeights.values)
    (readoutWeightsFinite : AllFinite readoutWeights.values)
    (pointFinite : AllFinite point.toArray) (inputFinite : AllFinite input.toArray)
    (inside : ∀ i, ¬Scalar.le 1 (Scalar.abs (point.get i))) :
    ofFixedPoint (.stored ⟨_, _, recurrent⟩) (.stored ⟨_, _, inputWeights⟩)
        (.stored ⟨_, _, readoutWeights⟩) (some point.toArray) (some input.toArray) settings =
      .ok ⟨d, (placed settings recurrent inputWeights readoutWeights input).anchor point⟩ := by
  let parts : Parts α d :=
    ⟨recurrent.toGrid, inputWeights.toGrid, readoutWeights, point, input⟩
  have accepted : parts.AcceptedFrom (.stored ⟨_, _, recurrent⟩) (.stored ⟨_, _, inputWeights⟩)
      (.stored ⟨_, _, readoutWeights⟩) (some point.toArray) (some input.toArray) :=
    { recurrent_eq := Operand.toGrid_stored recurrentFinite
      inputWeights_eq := Operand.toGrid_stored inputWeightsFinite
      readoutWeights_eq := Operand.toSheet_stored readoutWeightsFinite
      point_eq := Given.ofFinite_eq_ok_iff.mpr ⟨rfl, pointFinite⟩
      input_eq := Given.ofFinite_eq_ok_iff.mpr ⟨rfl, inputFinite⟩
      inside }
  exact ofFixedPoint_of_accepted accepted

/-! ## Base reservoirs -/

variable (d) in
/-- The uniform numbers that the fixed point of a base reservoir is drawn from. -/
def basePoint (uniforms : Vector α (d.latents * d.inputs + d.latents)) : Vector α d.latents :=
  Vector.ofFn fun i => baseEntry (uniforms.get (i.natAdd (d.latents * d.inputs)))

/-- What a base reservoir makes of its draws is accepted. -/
theorem ofDraws_of_finite (settings : Settings α) {draw : (count : Nat) → Vector α count}
    {uniforms : Vector α (d.latents * d.inputs + d.latents)} (drawn : draw _ = uniforms)
    (fits : d.latents * d.inputs < wordLimit) (zeroFinite : Scalar.finite (0 : α))
    (weights : ∀ i, Scalar.finite (baseWeight (uniforms.get i)))
    (entries : ∀ i, Scalar.finite ((basePoint d uniforms).get i))
    (inside : ∀ i, ¬Scalar.le 1 (Scalar.abs ((basePoint d uniforms).get i))) :
    ∃ inputWeights, ofDraws d.inputs d.outputs d.latents draw settings =
      .ok ⟨d, (placed settings .zero inputWeights .zero (Vector.replicate d.inputs 0)).anchor
        (basePoint d uniforms)⟩ := by
  have taken : AllFinite ((uniforms.toArray.take (d.latents * d.inputs)).map baseWeight) := by
    intro value isEntry
    obtain ⟨u, isDraw, rfl⟩ := Array.mem_map.mp isEntry
    obtain ⟨i, first, rfl⟩ := Array.mem_iff_getElem.mp isDraw
    have early : i < d.latents * d.inputs := by simpa using first
    simpa [Vector.get] using weights ⟨i, Nat.lt_add_right _ early⟩
  have count : ((uniforms.toArray.take (d.latents * d.inputs)).map baseWeight).size =
      d.latents * d.inputs := by
    simp
  have point : (uniforms.toArray.drop (d.latents * d.inputs)).map baseEntry =
      (basePoint d uniforms).toArray := by
    apply Array.ext
    · simp
    · intro i first second
      simp [basePoint, Vector.get]
  have zeros (rows cols : Nat) : Matrix.zeros (α := α) rows cols = .ok ⟨rows, cols, .zero⟩ := by
    unfold Matrix.zeros
    rw [Matrix.dimensions_natCast]
    rfl
  obtain ⟨inputWeights, kept, made⟩ := Matrix.ofValues_of_finite fits count taken
  have inputWeightsFinite : AllFinite inputWeights.values := kept.symm ▸ taken
  refine ⟨inputWeights, ?_⟩
  unfold ofDraws
  rw [Outcome.within_eq_ok_iff, Dims.ofInts?_natCast]
  dsimp only
  rw [drawn, zeros, zeros, Outcome.ok_bind, made, Outcome.ok_bind, Outcome.ok_bind, point]
  have input : Array.replicate d.inputs (0 : α) = (Vector.replicate d.inputs 0).toArray := rfl
  rw [input]
  exact ofFixedPoint_of_finite (Sheet.allFinite_zero zeroFinite) inputWeightsFinite
    (Sheet.allFinite_zero zeroFinite) ((allFinite_vector_iff _).mpr entries)
    (allFinite_replicate _ zeroFinite) inside

section Activation

variable [ActivationScalar α]

open ActivationScalar MeasuredScalar

theorem decoupled_placed (settings : Settings α) (inputWeights : Sheet α d.latents d.inputs) :
    Decoupled (placed settings .zero inputWeights .zero (Vector.replicate d.inputs 0)) where
  recurrent_zero i j := by
    rw [placed, Sheet.get_toGrid, Sheet.get_zero]
  input_zero := Vector.get_replicate d.inputs 0
  bias_finite i := by
    rw [placed, blank, Vector.get_replicate]
    exact finite_zero
  bias_ne_neg_zero i := by
    rw [placed, blank, Vector.get_replicate]
    exact SignedZeroScalar.zero_ne_neg_zero

/-- Without recurrent weights and input, the bias of a fixed point is its inverse activation. -/
theorem bias_anchor (settings : Settings α) (inputWeights : Sheet α d.latents d.inputs)
    {point : Vector α d.latents} (finite : ∀ i, Scalar.finite (point.get i)) (i : Fin d.latents) :
    ((placed settings .zero inputWeights .zero (Vector.replicate d.inputs 0)).anchor
      point).bias.get i = Scalar.atanh (point.get i) := by
  have decoupled := decoupled_placed settings inputWeights
  show (Vector.ofFn _).get i = _
  rw [Vector.get_ofFn, decoupled.rowDot_recurrent finite, decoupled.rowDot_input,
    Scalar.zero_add_zero, DifferenceScalar.sub_zero]

/-- A base reservoir with a fixed point inside the domain of the inverse activation is at rest. -/
theorem atRest_anchor {settings : Settings α} (inputWeights : Sheet α d.latents d.inputs)
    {point : Vector α d.latents} (positive : Scalar.lt 0 settings.tolerance)
    (finite : ∀ i, Scalar.finite (point.get i))
    (inside : ∀ i, Scalar.lt (Scalar.abs (point.get i)) 1) (notNegative : ∀ i, point.get i ≠ -0) :
    AtRest ((placed settings .zero inputWeights .zero (Vector.replicate d.inputs 0)).anchor
      point) := by
  have decoupled := decoupled_placed settings inputWeights
  refine ⟨⟨decoupled.recurrent_zero, decoupled.input_zero, ?_, ?_⟩, rfl, rfl, rfl, positive⟩
  · intro i
    rw [bias_anchor settings inputWeights finite]
    exact finite_atanh (finite i) (inside i)
  · intro i
    rw [bias_anchor settings inputWeights finite]
    exact fun zero => notNegative i (neg_zero_of_atanh (finite i) (inside i) zero)

end Activation

end Reservoir

/-- A list of positive finite numbers is not refused. -/
theorem Settings.exists_resolve {list : List (Setting α)}
    (valid : ∀ setting ∈ list, Scalar.positiveFinite setting.value) :
    ∃ settings, resolve list = .ok settings := by
  have none : (list.find? fun setting => !Scalar.positiveFinite setting.value) = none := by
    rw [List.find?_eq_none]
    intro setting isSetting
    simpa using valid setting isSetting
  refine ⟨list.foldl change standard, ?_⟩
  unfold resolve
  rw [none]

/-! ## Binary64 draws -/

namespace Binary64

theorem finite_of_uniform {u : Float} (nonneg : Scalar.le 0 u) (below : Scalar.lt u 1) :
    Scalar.finite u := by
  have number : (value u).isNaN = false := (le_iff.mp nonneg).2.1
  rw [finite_iff]
  cases same : value u with
  | notANumber =>
      rw [same] at number
      cases number
  | infinity sign =>
      cases sign with
      | negative =>
          have least : count (value 0) ≤ count (value u) := (le_iff.mp nonneg).2.2
          have below : count (.infinity .negative) = -(ceiling : Int) := rfl
          rw [value_zero, count_zero, same, below] at least
          exact absurd ceiling_pos (by omega)
      | positive =>
          have infinite : u = Scalar.inf := value_injective (same.trans value_inf.symm)
          have most : Scalar.le 1 u := infinite ▸ Scalar.le_inf (by with_unfolding_all decide)
          exact absurd most (OrderedScalar.lt_iff.mp below).2
  | zero sign => exact Or.inl ⟨sign, rfl⟩
  | finite sign m e positive => exact Or.inr ⟨sign, m, e, positive, rfl⟩

variable {u : Float} (nonneg : Scalar.le 0 u) (below : Scalar.lt u 1)

include nonneg below

theorem within_baseEntry : Within (Reservoir.baseEntry u) (some ⟨-1 / 2, 1 / 2⟩) := by
  have finite := finite_of_uniform nonneg below
  have lower : 0 ≤ amount u := (zero_le_iff finite).mp nonneg
  have upper : amount u < amount 1 := (lt_iff_amount_lt finite finite_one).mp below
  have range : Within u (some ⟨0, 1⟩) := ⟨finite, lower, upper.le.trans_eq amount_one⟩
  exact (range.sub (.constant (Scalar.ratio 1 2))).of_inside (by with_unfolding_all decide)

theorem finite_baseWeight : Scalar.finite (Reservoir.baseWeight u) := by
  have product : Within (Reservoir.baseWeight u) (some ⟨-1, 1⟩) :=
    ((within_baseEntry nonneg below).mul (.constant (Scalar.ratio 1 20))).of_inside
      (by with_unfolding_all decide)
  exact product.1

theorem finite_baseEntry : Scalar.finite (Reservoir.baseEntry u) :=
  (within_baseEntry nonneg below).1

theorem abs_baseEntry_lt_one : Scalar.lt (Scalar.abs (Reservoir.baseEntry u)) 1 := by
  obtain ⟨finite, lower, upper⟩ := within_baseEntry nonneg below
  refine (lt_iff_amount_lt (finite_abs finite) finite_one).mpr ?_
  show amount (Scalar.abs (Reservoir.baseEntry u)) < amount 1
  rw [amount_abs, amount_one, abs_lt]
  constructor <;> linarith

omit nonneg below in
theorem baseEntry_ne_neg_zero (u : Float) : Reservoir.baseEntry u ≠ -0 := by
  intro zero
  have half := (SignedZeroScalar.neg_zeros_of_add ((sub_eq_add_opposite u _).symm.trans zero)).2
  exact absurd (congrArg amount half) (by with_unfolding_all decide)

end Binary64

/-! ## Settling -/

namespace Reservoir

open Binary64

/-- A base reservoir of draws in their range is built, its bias is the inverse activation of its
fixed point, and it is at rest. -/
theorem exists_ofDraws {d : Dims} {settings : Settings Float}
    (positive : Scalar.lt 0 settings.tolerance) (fits : d.latents * d.inputs < wordLimit)
    (draw : (count : Nat) → Vector Float count)
    (uniform : ∀ u ∈ draw (d.latents * d.inputs + d.latents), Scalar.le 0 u ∧ Scalar.lt u 1) :
    ∃ r : Reservoir Float d,
      ofDraws d.inputs d.outputs d.latents draw settings = .ok ⟨d, r⟩ ∧ r.settings = settings ∧
        (∀ i, r.bias.get i = Scalar.atanh ((basePoint d (draw _)).get i)) ∧ AtRest r := by
  generalize drawn : draw (d.latents * d.inputs + d.latents) = uniforms at uniform ⊢
  have range (i : Fin (d.latents * d.inputs + d.latents)) :
      Scalar.le 0 (uniforms.get i) ∧ Scalar.lt (uniforms.get i) 1 :=
    uniform _ (Vector.getElem_mem i.isLt)
  have entry (i : Fin d.latents) : (basePoint d uniforms).get i =
      baseEntry (uniforms.get (i.natAdd (d.latents * d.inputs))) :=
    Vector.get_ofFn _ i
  have finite (i : Fin d.latents) : Scalar.finite ((basePoint d uniforms).get i) := by
    rw [entry]
    exact finite_baseEntry (range _).1 (range _).2
  have inside (i : Fin d.latents) : Scalar.lt (Scalar.abs ((basePoint d uniforms).get i)) 1 := by
    rw [entry]
    exact abs_baseEntry_lt_one (range _).1 (range _).2
  have notNegative (i : Fin d.latents) : (basePoint d uniforms).get i ≠ -0 := by
    rw [entry]
    exact baseEntry_ne_neg_zero _
  obtain ⟨inputWeights, built⟩ := ofDraws_of_finite settings drawn fits
    MeasuredScalar.finite_zero (fun i => finite_baseWeight (range i).1 (range i).2) finite
    fun i => (OrderedScalar.lt_iff.mp (inside i)).2
  exact ⟨_, built, rfl, bias_anchor settings inputWeights finite,
    atRest_anchor inputWeights positive finite inside notNegative⟩

/-- Whatever is drawn, a base reservoir whose weights can be counted in a word is built, its bias is
the inverse activation of its fixed point, and it settles by its second step. A reservoir of zeros
settles in its first step and stays at zero. -/
theorem ofDraws_settlesByTwo {list : List (Setting Float)}
    (valid : ∀ setting ∈ list, Scalar.positiveFinite setting.value) (d : Dims)
    (fits : d.latents * d.inputs < wordLimit) (draw : (count : Nat) → Vector Float count)
    (uniform : ∀ u ∈ draw (d.latents * d.inputs + d.latents), Scalar.le 0 u ∧ Scalar.lt u 1) :
    ∃ settings, Settings.resolve list = .ok settings ∧
      (∃ r : Reservoir Float d,
        ofDraws d.inputs d.outputs d.latents draw settings = .ok ⟨d, r⟩ ∧ r.settings = settings ∧
          (∀ i, r.bias.get i = Scalar.atanh ((basePoint d (draw _)).get i)) ∧ r.SettlesByTwo) ∧
      ∃ r : Reservoir Float d,
        create d.inputs d.outputs d.latents settings = .ok ⟨d, r⟩ ∧
          ∀ (bound : Nat) (maxSteps : Int), 1 < bound → ∃ after : Machine Float d,
            (Machine.ofReservoir r).settle bound .never maxSteps = (some ⟨1, none⟩, after) ∧
              after.reservoir.state = Vector.replicate d.latents 0 := by
  obtain ⟨settings, resolved⟩ := Settings.exists_resolve valid
  have positive := (Settings.usable_of_resolve Settings.usable_standard resolved).tolerance.2
  refine ⟨settings, resolved, ?base, ?zeros⟩
  case base =>
    obtain ⟨r, built, kept, bias, atRest⟩ := exists_ofDraws positive fits draw uniform
    exact ⟨r, built, kept, bias, atRest.settlesByTwo⟩
  case zeros =>
    have atRest := atRest_blank positive d
    refine ⟨blank d settings, create_natCast d settings, fun bound maxSteps enough => ?_⟩
    obtain ⟨after, settled, same⟩ := Machine.settle_of_reservoir (m := .ofReservoir _)
      (atRest.settle_of_quiet (quiet_blank positive d) enough maxSteps)
    refine ⟨after, settled, ?_⟩
    rw [same]
    exact held_blank d settings

/-- Two entries on either side of zero, one of them at the end of the range, under a tolerance that
lies between their sizes. -/
theorem ofDraws_settlesByTwo_binary64 :
    let settings : Settings Float := { Settings.standard with tolerance := 0.375 }
    let draw := fun count => Vector.ofFn fun i : Fin count => if i.val = 3 then 0 else 0.75
    ∃ r : Reservoir Float ⟨1, 1, 2⟩,
      ofDraws 1 1 2 draw settings = .ok ⟨⟨1, 1, 2⟩, r⟩ ∧ r.SettlesByTwo ∧ ¬r.Quiet := by
  intro settings draw
  have resolved : Settings.resolve [⟨.tolerance, 0.375⟩] = .ok settings := by
    with_unfolding_all rfl
  have valid : ∀ setting ∈ [(⟨.tolerance, 0.375⟩ : Setting Float)],
      Scalar.positiveFinite setting.value = true := by
    decide +kernel
  obtain ⟨other, same, ⟨r, built, kept, bias, settles⟩, _⟩ :=
    ofDraws_settlesByTwo valid ⟨1, 1, 2⟩ (by decide) draw (by decide +kernel)
  obtain rfl : settings = other := Except.ok.inj (resolved.symm.trans same)
  refine ⟨r, built, settles, fun quiet => ?_⟩
  have below := quiet 1
  rw [kept, bias] at below
  exact absurd below (by decide +kernel)

end Reservoir

end EchoState
