import EchoState.Proofs.Matrix.Product
import EchoState.Proofs.Reservoir.History
import EchoState.Proofs.Scalar.Float

/-!
# Well-formed reservoirs

Whatever a constructor accepts and whatever operations follow, the weights, the inputs and the
fixed point of a reservoir are finite, its fixed point lies inside the domain of the inverse
activation, and its settings are those it was made with. The kernels check shapes that cannot be
wrong any more, so none of the calls whose outcome is not looked at can fail.
-/

namespace EchoState

variable {α : Type} {d : Dims}

/-! ## Shapes -/

namespace Reservoir

/-- Every buffer has the length that the dimensions ask for. -/
structure Shaped (r : Reservoir α d) : Prop where
  state_size : r.state.toArray.size = d.latents
  input_size : r.input.toArray.size = d.inputs
  bias_size : r.bias.toArray.size = d.latents
  fixedPoint_size : r.fixedPoint.toArray.size = d.latents
  fixedInput_size : r.fixedInput.toArray.size = d.inputs
  recurrent_size : r.recurrent.cells.toArray.size = d.latents * d.latents
  inputWeights_size : r.inputWeights.cells.toArray.size = d.latents * d.inputs
  readoutWeights_size : r.readoutWeights.values.size = d.outputs * d.latents

theorem shaped (fits : d.outputs * d.latents < wordLimit) (r : Reservoir α d) : Shaped r :=
  ⟨Vector.size_toArray _, Vector.size_toArray _, Vector.size_toArray _, Vector.size_toArray _,
    Vector.size_toArray _, Vector.size_toArray _, Vector.size_toArray _,
    Sheet.size_values fits r.readoutWeights⟩

end Reservoir

variable [Scalar α]

/-! ## Settings -/

structure Settings.Usable (settings : Settings α) : Prop where
  tolerance : Scalar.finite settings.tolerance = true ∧ Scalar.lt 0 settings.tolerance = true
  timescale : Scalar.finite settings.timescale = true ∧ Scalar.lt 0 settings.timescale = true
  gamma : Scalar.finite settings.gamma = true ∧ Scalar.lt 0 settings.gamma = true

theorem Settings.Usable.change {settings : Settings α} (usable : settings.Usable)
    {setting : Setting α}
    (accepted : Scalar.finite setting.value = true ∧ Scalar.lt 0 setting.value = true) :
    (settings.change setting).Usable := by
  obtain ⟨knob, value⟩ := setting
  cases knob with
  | tolerance => exact { usable with tolerance := accepted }
  | timescale => exact { usable with timescale := accepted }
  | gamma => exact { usable with gamma := accepted }

theorem Settings.Usable.foldl_change {list : List (Setting α)} {settings : Settings α}
    (usable : settings.Usable)
    (accepted : ∀ setting ∈ list,
      Scalar.finite setting.value = true ∧ Scalar.lt 0 setting.value = true) :
    (list.foldl Settings.change settings).Usable := by
  induction list generalizing settings with
  | nil => exact usable
  | cons setting rest ih =>
      have changed := usable.change (accepted setting (List.mem_cons_self ..))
      exact ih changed fun later isLater => accepted later (List.mem_cons_of_mem _ isLater)

/-- Settings that were not refused are usable, provided the standard ones are. -/
theorem Settings.usable_of_resolve [MeasuredScalar α] {list : List (Setting α)}
    {settings : Settings α} (standard : (Settings.standard : Settings α).Usable)
    (resolved : Settings.resolve list = .ok settings) : settings.Usable := by
  unfold Settings.resolve at resolved
  cases refused : list.find? fun setting => !Scalar.positiveFinite setting.value with
  | some bad =>
      rw [refused] at resolved
      cases resolved
  | none =>
      rw [refused] at resolved
      cases resolved
      rw [List.find?_eq_none] at refused
      apply standard.foldl_change
      intro setting isSetting
      have positive : Scalar.positiveFinite setting.value = true := by
        simpa using refused setting isSetting
      refine ⟨Scalar.finite_of_positiveFinite positive, ?_⟩
      simp only [Scalar.positiveFinite, Bool.and_eq_true] at positive
      exact positive.1

/-! ## The invariant -/

namespace Reservoir

/-- The parts of a reservoir that callers hand over once are finite, its fixed point lies inside the
domain of the inverse activation, and its settings are the given ones. -/
structure WellFormed (settings : Settings α) (r : Reservoir α d) : Prop where
  settings_eq : r.settings = settings
  input_finite : AllFinite r.input.toArray
  fixedPoint_finite : AllFinite r.fixedPoint.toArray
  fixedPoint_inside : ∀ i : Fin d.latents, Scalar.lt (Scalar.abs (r.fixedPoint.get i)) 1 = true
  fixedInput_finite : AllFinite r.fixedInput.toArray
  recurrent_finite : AllFinite r.recurrent.cells.toArray
  inputWeights_finite : AllFinite r.inputWeights.cells.toArray
  readoutWeights_finite : AllFinite r.readoutWeights.values

namespace WellFormed

variable {settings : Settings α}

theorem advance [Distances α] {r : Reservoir α d} (wellFormed : WellFormed settings r) :
    WellFormed settings r.advance.2 :=
  { wellFormed with }

variable [MeasuredScalar α]

theorem blank (d : Dims) (settings : Settings α) :
    WellFormed settings (Reservoir.blank d settings) := by
  have zero : Scalar.finite (0 : α) = true := MeasuredScalar.finite_zero
  refine ⟨rfl, allFinite_replicate _ zero, allFinite_replicate _ zero, ?_,
    allFinite_replicate _ zero, allFinite_replicate _ zero, allFinite_replicate _ zero,
    Sheet.allFinite_zero zero⟩
  rintro ⟨i, inside⟩
  simp only [Reservoir.blank, vector_get_mk, Vector.getElem_replicate]
  exact MeasuredScalar.abs_zero_lt_one

theorem edit {r next : Reservoir α d} (wellFormed : WellFormed settings r)
    (replaced : Edit r next) : WellFormed settings next := by
  have zero : Scalar.finite (0 : α) = true := MeasuredScalar.finite_zero
  cases replaced with
  | state state => exact { wellFormed with }
  | input accepted =>
      have finite := (Given.ofFinite_eq_ok_iff.mp accepted).2
      exact { wellFormed with input_finite := finite }
  | bias accepted => exact { wellFormed with }
  | recurrent accepted =>
      have finite := Operand.allFinite_of_toGrid zero accepted
      exact { wellFormed with recurrent_finite := finite }
  | inputWeights accepted =>
      have finite := Operand.allFinite_of_toGrid zero accepted
      exact { wellFormed with inputWeights_finite := finite }
  | readoutWeights accepted =>
      have finite := Operand.allFinite_of_toSheet accepted
      exact { wellFormed with readoutWeights_finite := finite }

theorem trace [Distances α] {first last : Reservoir α d} {deltas : List α}
    (wellFormed : WellFormed settings first) (trace : Trace first deltas last) :
    WellFormed settings last := by
  induction trace with
  | refl => exact wellFormed
  | step before ih => exact ih.advance
  | edit before replaced ih => exact ih.edit replaced

/-- A fixed point that was accepted lies inside the domain of the inverse activation. -/
theorem anchor {r next : Reservoir α d} (wellFormed : WellFormed settings r) {given : Given α}
    {point : Vector α d.latents} (accepted : given.ofFinite d.latents = .ok point)
    (anchored : r.anchorWithin point = .ok next) : WellFormed settings next := by
  have finite := (Given.ofFinite_eq_ok_iff.mp accepted).2
  obtain ⟨inside, rfl⟩ := anchorWithin_eq_ok_iff.mp anchored
  exact { wellFormed with
    fixedPoint_finite := finite
    fixedPoint_inside := fun i =>
      Scalar.abs_lt_one ((allFinite_vector_iff point).mp finite i) (inside i)
    fixedInput_finite := wellFormed.input_finite }

theorem origin [Distances α] {r : Reservoir α d} (origin : Origin settings r) :
    WellFormed settings r := by
  obtain ⟨plain, trace, rfl | ⟨given, point, accepted, anchored⟩⟩ := origin
  · exact (blank d settings).trace trace
  · exact ((blank d settings).trace trace).anchor accepted anchored

end WellFormed

/-! ## Kernel calls -/

/-- The kernel calls that put the linear part `A r + B x` of the activation into a buffer: the
outcome of each call and the buffer they leave. -/
def linearPart (r : Reservoir α d) (buffer state input : Given α) :
    Outcome α Unit × Outcome α Unit × Given α :=
  let (first, buffer) := Operand.vectorProductInto buffer (.stored (.ofGrid r.recurrent)) state
  let (second, buffer) :=
    Operand.addVectorProductInto buffer (.stored (.ofGrid r.inputWeights)) input
  (first, second, buffer)

/-- The sums that the linear part of the activation adds up to. -/
def linearSums (r : Reservoir α d) (state : Vector α d.latents) (input : Vector α d.inputs) :
    Vector α d.latents :=
  Vector.ofFn fun i => r.recurrent.rowDot state i + r.inputWeights.rowDot input i

/-- No kernel call of a reservoir fails: the linear part is computed as it is in a step, in an
integration and in the choice of a bias, and the readout has one entry for each output. -/
structure KernelsSucceed (r : Reservoir α d) : Prop where
  linearPart_eq : ∀ (buffer state : Vector α d.latents) (input : Vector α d.inputs),
    r.linearPart (some buffer.toArray) (some state.toArray) (some input.toArray) =
      (.ok (), .ok (), some (r.linearSums state input).toArray)
  activateInto_eq : ∀ (buffer state : Vector α d.latents) (input : Vector α d.inputs),
    Machine.activateInto r buffer state input =
      Vector.ofFn fun i => Scalar.tanh ((r.linearSums state input).get i + r.bias.get i)
  anchor_eq : ∀ point : Vector α d.latents,
    (r.anchor point).bias =
      Vector.ofFn fun i => Scalar.atanh (point.get i) - (r.linearSums point r.input).get i
  readout_eq :
    Operand.vectorProduct (.stored ⟨d.outputs, d.latents, r.readoutWeights⟩)
      (some r.state.toArray) = .ok r.readout.toArray
  readout_size : r.readout.toArray.size = d.outputs

end Reservoir

namespace Reservoir

theorem linearPart_eq (r : Reservoir α d) (buffer state : Vector α d.latents)
    (input : Vector α d.inputs) :
    r.linearPart (some buffer.toArray) (some state.toArray) (some input.toArray) =
      (.ok (), .ok (), some (r.linearSums state input).toArray) := by
  have first := Operand.vectorProductInto_stored (.ofGrid r.recurrent) state buffer
  have second := Operand.addVectorProductInto_stored (.ofGrid r.inputWeights) input
    (overwrite buffer fun i _ => r.recurrent.rowDot state i)
  have sums : (overwrite (overwrite buffer fun i _ => r.recurrent.rowDot state i) fun i old =>
      old + r.inputWeights.rowDot input i) = r.linearSums state input := by
    apply Vector.ext
    intro i inside
    simp [linearSums]
  unfold linearPart
  rw [first, ← sums]
  dsimp only
  exact congrArg (Prod.mk (Except.ok ())) second

theorem kernelsSucceed (r : Reservoir α d) : KernelsSucceed r where
  linearPart_eq := r.linearPart_eq
  activateInto_eq buffer state input := by
    rw [Machine.activateInto_eq]
    apply Vector.ext
    intro i inside
    simp [activation, linearSums]
  anchor_eq point := by
    apply Vector.ext
    intro i inside
    simp [anchor, linearSums]
  readout_eq := by
    unfold Operand.vectorProduct
    simp only [Given.ofLength_toArray]
    rfl
  readout_size := Vector.size_toArray _

end Reservoir

theorem Settings.usable_standard : (Settings.standard : Settings Float).Usable := by
  constructor <;> decide +kernel

namespace Machine

/-- After any run of operations on a constructed reservoir, every buffer has its length, every part
that must be finite is, the fixed point lies inside the domain of the inverse activation, the
settings are usable and those resolved at first, and no kernel call can fail. -/
theorem performAll_wellFormed {list : List (Setting Float)} {settings : Settings Float}
    (resolved : Settings.resolve list = .ok settings) {r : AnyReservoir Float}
    (constructed : Constructed settings r)
    (fits : r.dims.outputs * r.dims.latents < wordLimit) (bound : Nat)
    (operations : List (Operation Float)) :
    let final : Reservoir Float r.dims :=
      ((ofReservoir r.reservoir).performAll bound operations).2.reservoir
    final.Shaped ∧ final.WellFormed settings ∧ settings.Usable ∧ final.KernelsSucceed := by
  intro final
  have begins := Reservoir.WellFormed.origin constructed.origin
  have wellFormed : final.WellFormed settings :=
    begins.trace (Recorded.trace_performAll bound r.reservoir operations)
  exact ⟨final.shaped fits, wellFormed,
    Settings.usable_of_resolve Settings.usable_standard resolved, final.kernelsSucceed⟩

/-- A reservoir with a fixed point, in binary64, after steps, a refused input, new weights read
through a view, an attempt to settle, a simulation and a copy. -/
theorem performAll_wellFormed_binary64 :
    let settings : Settings Float := { Settings.standard with gamma := 2 }
    let plain : Reservoir Float ⟨1, 1, 1⟩ :=
      { Reservoir.blank _ settings with
        recurrent := ⟨#v[0.5]⟩
        inputWeights := ⟨#v[0.25]⟩
        readoutWeights := .whole ⟨#v[1]⟩
        input := #v[1] }
    let operations : List (Operation Float) :=
      [.advance, .assignInput none, .assignRecurrent (.view ⟨1, 1, fun _ _ => .ok 0.75⟩),
        .settle .never 2, .simulate [some #[1], some #[0.5]], .clone]
    let final := ((ofReservoir (plain.anchor #v[0.5])).performAll 3 operations).2.reservoir
    final.Shaped ∧ final.WellFormed settings ∧ settings.Usable ∧ final.KernelsSucceed := by
  intro settings plain operations final
  have resolved : Settings.resolve [⟨.gamma, 2⟩] = .ok settings := rfl
  have constructed : Constructed settings ⟨⟨1, 1, 1⟩, plain.anchor #v[0.5]⟩ :=
    .ofFixedPoint (.view ⟨1, 1, fun _ _ => .ok 0.5⟩) (.stored ⟨1, 1, .whole ⟨#v[0.25]⟩⟩)
      (.stored ⟨1, 1, .whole ⟨#v[1]⟩⟩) (some #[0.5]) (some #[1]) (by with_unfolding_all rfl)
  exact performAll_wellFormed resolved constructed (by decide) 3 operations

end Machine

end EchoState
