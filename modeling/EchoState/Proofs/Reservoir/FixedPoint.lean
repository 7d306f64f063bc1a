import EchoState.Proofs.Reservoir.Base
import EchoState.Proofs.Reservoir.Step
import EchoState.Proofs.Scalar.Real

/-!
# Staying at a fixed point

The bias of a reservoir with a chosen fixed point is formed in the association in which a step adds
it back: what is taken from the inverse activation is the same sum, in the same order, that the step
adds the bias to. Hence a step from the fixed point leads back to it wherever the arithmetic undoes
a difference by a sum and the inverse activation by the activation, as exact arithmetic does
everywhere. No change of state is then ever reported, and the first step counts as convergence.
-/

namespace EchoState

variable {α : Type} [Scalar α] {d : Dims}

/-! ## Steps from a fixed point -/

/-- The state is finite, and the state after it is the same. -/
structure Reservoir.AtFixedPoint (r : Reservoir α d) : Prop where
  finite : ∀ i, Scalar.finite (r.state.get i) = true
  activation_eq : r.activation r.state r.input = r.state

section Steps

variable [Distances α] [SupremumDistances α] [GapScalar α]

namespace Reservoir

theorem change_self {state : Vector α d.latents}
    (finite : ∀ i, Scalar.finite (state.get i) = true) : change state state = 0 := by
  rw [change_of_bothFinite fun i => ⟨finite i, finite i⟩]
  apply Distance.supremum_self
  intro x listed
  obtain ⟨i, inside, rfl⟩ := Vector.mem_iff_getElem.mp (Vector.mem_toList_iff.mp listed)
  exact GapScalar.abs_sub_self (finite ⟨i, inside⟩)

theorem AtFixedPoint.advance_eq {r : Reservoir α d} (atFixedPoint : AtFixedPoint r) :
    r.advance = (0, r.install r.state 0) := by
  unfold advance
  dsimp only
  rw [atFixedPoint.activation_eq, change_self atFixedPoint.finite]

end Reservoir

namespace Machine

theorem advance_of_atFixedPoint {m : Machine α d} (atFixedPoint : m.reservoir.AtFixedPoint) :
    m.advance.1 = 0 ∧ m.advance.2.reservoir = m.reservoir.install m.reservoir.state 0 := by
  rw [advance_eq, atFixedPoint.advance_eq]
  exact ⟨rfl, rfl⟩

/-- However many steps are made from a fixed point, each of them reports no change, and the first
counts as convergence. -/
theorem performAll_advance_of_atFixedPoint (bound count : Nat) {m : Machine α d}
    (atFixedPoint : m.reservoir.AtFixedPoint)
    (positive : Scalar.lt 0 m.reservoir.settings.tolerance) :
    let run := m.performAll bound (List.replicate count .advance)
    run.1 = List.replicate count (.delta 0) ∧ run.2.reservoir.state = m.reservoir.state ∧
      (run.2.reservoir.converged = true ↔ m.reservoir.converged = true ∨ 0 < count) := by
  induction count generalizing m with
  | zero => exact ⟨rfl, rfl, by simp [performAll]⟩
  | succ count ih =>
      obtain ⟨delta, next⟩ := advance_of_atFixedPoint atFixedPoint
      have stays : m.advance.2.reservoir.AtFixedPoint := by
        rw [next]
        exact ⟨atFixedPoint.finite, atFixedPoint.activation_eq⟩
      have sameSettings : m.advance.2.reservoir.settings = m.reservoir.settings := by rw [next]; rfl
      have sameState : m.advance.2.reservoir.state = m.reservoir.state := by rw [next]; rfl
      have done : m.advance.2.reservoir.converged = true := by
        rw [next]
        show (m.reservoir.converged || Scalar.lt 0 m.reservoir.settings.tolerance) = true
        rw [positive, Bool.or_true]
      obtain ⟨replies, state, converged⟩ := ih stays (sameSettings ▸ positive)
      refine ⟨?_, state.trans sameState, ?_⟩
      · rw [List.replicate_succ, List.replicate_succ, ← replies, ← delta]
        rfl
      · exact iff_of_true (converged.mpr (Or.inl done)) (Or.inr (Nat.succ_pos count))

omit [SupremumDistances α] [GapScalar α] in
theorem perform_assignState (bound : Nat) (m : Machine α d) {state : Vector α d.latents}
    (finite : AllFinite state.toArray) :
    m.perform bound (.assignState (some state.toArray)) =
      (.done (.ok ()), { m with reservoir := { m.reservoir with state } }) := by
  have assigned : m.reservoir.assignState (some state.toArray) =
      .ok { m.reservoir with state } := by
    unfold Reservoir.assignState
    rw [replace_eq_ok_iff]
    exact ⟨_, Given.ofFinite_eq_ok_iff.mpr ⟨rfl, finite⟩, rfl⟩
  show answer (m.adopt (m.reservoir.assignState _)) = _
  rw [assigned]
  rfl

/-- After the state has been set to a fixed point, no number of steps leads away from it. -/
theorem performAll_fixedPoint (bound count : Nat) {m : Machine α d} {point : Vector α d.latents}
    (unconverged : m.reservoir.converged = false) (finite : AllFinite point.toArray)
    (atFixedPoint : ({ m.reservoir with state := point } : Reservoir α d).AtFixedPoint)
    (positive : Scalar.lt 0 m.reservoir.settings.tolerance) :
    let run := m.performAll bound
      (.assignState (some point.toArray) :: List.replicate count .advance)
    run.1 = .done (.ok ()) :: List.replicate count (.delta 0) ∧
      run.2.reservoir.state = point ∧ (run.2.reservoir.converged = true ↔ 0 < count) := by
  let placed : Machine α d := { m with reservoir := { m.reservoir with state := point } }
  obtain ⟨replies, state, converged⟩ :=
    performAll_advance_of_atFixedPoint bound count (m := placed) atFixedPoint positive
  unfold performAll
  rw [perform_assignState bound m finite]
  refine ⟨congrArg _ replies, state, converged.trans ?_⟩
  have before : placed.reservoir.converged = false := unconverged
  rw [before]
  exact or_iff_right Bool.false_ne_true

end Machine

end Steps

/-! ## The chosen fixed point -/

namespace Reservoir

/-- The identities of exact arithmetic, for the values that the choice of the bias and a step from
the fixed point compute. -/
structure ExactAtFixedPoint (r : Reservoir α d) : Prop where
  add_sub_cancel : ∀ i,
    let sum := (r.linearSums r.fixedPoint r.input).get i
    let preimage := Scalar.atanh (r.fixedPoint.get i)
    sum + (preimage - sum) = preimage
  tanh_atanh : ∀ i, Scalar.lt (Scalar.abs (r.fixedPoint.get i)) 1 →
    Scalar.tanh (Scalar.atanh (r.fixedPoint.get i)) = r.fixedPoint.get i

theorem exactAtFixedPoint_real (r : Reservoir Exact d) : r.ExactAtFixedPoint where
  add_sub_cancel _ := Exact.add_sub_cancel _ _
  tanh_atanh _ := Exact.tanh_atanh

/-- A reservoir made of what the operands show, with a given state as a fixed point under a given
input. -/
structure PlacesFixedPoint [Distances α] (recurrent inputWeights readoutWeights : Operand α)
    (point input : Given α) (r : Reservoir α d) : Prop where
  recurrent_shown : recurrent.ShowsGrid r.recurrent
  inputWeights_shown : inputWeights.ShowsGrid r.inputWeights
  readoutWeights_shown : readoutWeights.Shows r.readoutWeights
  fixedPoint_eq : point = some r.fixedPoint.toArray
  input_eq : input = some r.input.toArray
  fixedInput_eq : r.fixedInput = r.input
  state_eq : r.state = Vector.replicate d.latents 0
  bias_eq : ∀ i, r.bias.get i =
    Scalar.atanh (r.fixedPoint.get i) - (r.linearSums r.fixedPoint r.input).get i
  /-- From the fixed point no number of steps leads away. -/
  stays : r.ExactAtFixedPoint → ∀ bound count : Nat,
    let run := (Machine.ofReservoir r).performAll bound
      (.assignState (some r.fixedPoint.toArray) :: List.replicate count .advance)
    run.1 = .done (.ok ()) :: List.replicate count (.delta 0) ∧
      run.2.reservoir.state = r.fixedPoint ∧ (run.2.reservoir.converged = true ↔ 0 < count)

theorem get_linearSums (r : Reservoir α d) (state : Vector α d.latents) (input : Vector α d.inputs)
    (i : Fin d.latents) :
    (r.linearSums state input).get i = r.recurrent.rowDot state i + r.inputWeights.rowDot input i :=
  Vector.get_ofFn _ i

namespace Parts

theorem bias_reservoir (parts : Parts α d) (settings : Settings α) (i : Fin d.latents) :
    (parts.reservoir settings).bias.get i = Scalar.atanh (parts.point.get i) -
      ((parts.reservoir settings).linearSums parts.point parts.input).get i := by
  rw [get_linearSums]
  exact Vector.get_ofFn _ i

variable {parts : Parts α d} {recurrent inputWeights readoutWeights : Operand α}
  {point input : Given α}
  (accepted : parts.AcceptedFrom recurrent inputWeights readoutWeights point input)
  (settings : Settings α)

include accepted

theorem finite_point (i : Fin d.latents) : Scalar.finite (parts.point.get i) = true :=
  (allFinite_vector_iff _).mp (Given.ofFinite_eq_ok_iff.mp accepted.point_eq).2 i

variable [GapScalar α]

/-- In exact arithmetic the state that was chosen is a fixed point: the bias cancels the sums that
it is added to. -/
theorem atFixedPoint (exact : (parts.reservoir settings).ExactAtFixedPoint) :
    ({ parts.reservoir settings with state := parts.point } : Reservoir α d).AtFixedPoint where
  finite := finite_point accepted
  activation_eq := by
    apply Vector.ext
    intro i inside
    let r := parts.reservoir settings
    let sum := (r.linearSums parts.point parts.input).get ⟨i, inside⟩
    let preimage := Scalar.atanh (parts.point.get ⟨i, inside⟩)
    have inDomain := Scalar.abs_lt_one (finite_point accepted ⟨i, inside⟩)
      (accepted.inside ⟨i, inside⟩)
    have bias : r.bias.get ⟨i, inside⟩ = preimage - sum := parts.bias_reservoir settings _
    have summed : r.recurrent.rowDot parts.point ⟨i, inside⟩ +
        r.inputWeights.rowDot parts.input ⟨i, inside⟩ = sum := (r.get_linearSums _ _ _).symm
    rw [activation, Vector.getElem_ofFn]
    calc
      Scalar.tanh (r.recurrent.rowDot parts.point ⟨i, inside⟩ +
          r.inputWeights.rowDot parts.input ⟨i, inside⟩ + r.bias.get ⟨i, inside⟩)
        = Scalar.tanh (sum + (preimage - sum)) := by rw [summed, bias]
      _ = Scalar.tanh preimage := congrArg _ (exact.add_sub_cancel ⟨i, inside⟩)
      _ = parts.point.get ⟨i, inside⟩ := exact.tanh_atanh ⟨i, inside⟩ inDomain

theorem placesFixedPoint [Distances α] [SupremumDistances α]
    (positive : Scalar.lt 0 settings.tolerance) :
    (parts.reservoir settings).PlacesFixedPoint recurrent inputWeights readoutWeights point
      input where
  recurrent_shown := Operand.showsGrid_of_toGrid accepted.recurrent_eq
  inputWeights_shown := Operand.showsGrid_of_toGrid accepted.inputWeights_eq
  readoutWeights_shown := Operand.shows_of_toSheet accepted.readoutWeights_eq
  fixedPoint_eq := (Given.ofFinite_eq_ok_iff.mp accepted.point_eq).1
  input_eq := (Given.ofFinite_eq_ok_iff.mp accepted.input_eq).1
  fixedInput_eq := rfl
  state_eq := rfl
  bias_eq := parts.bias_reservoir settings
  stays exact bound count := by
    have fixed := atFixedPoint accepted settings exact
    have finite := (Given.ofFinite_eq_ok_iff.mp accepted.point_eq).2
    exact Machine.performAll_fixedPoint bound count rfl finite fixed positive

end Parts

/-- Over the real numbers nothing has to be asked of the values: whatever is accepted stays at the
fixed point that was chosen. -/
theorem Parts.stays_real {parts : Parts Exact d}
    {recurrent inputWeights readoutWeights : Operand Exact} {point input : Given Exact}
    (accepted : parts.AcceptedFrom recurrent inputWeights readoutWeights point input)
    {settings : Settings Exact} (positive : Scalar.lt 0 settings.tolerance) (bound count : Nat) :
    let run := (Machine.ofReservoir (parts.reservoir settings)).performAll bound
      (.assignState (some parts.point.toArray) :: List.replicate count .advance)
    run.1 = .done (.ok ()) :: List.replicate count (.delta 0) ∧
      run.2.reservoir.state = parts.point ∧ (run.2.reservoir.converged = true ↔ 0 < count) :=
  (placesFixedPoint accepted settings positive).stays (exactAtFixedPoint_real _) bound count

/-- Whatever operands a constructor with a chosen fixed point accepts, the reservoir it gives is at
zero, has the bias that cancels the sums at the fixed point, and in exact arithmetic stays at the
fixed point for any number of steps. -/
theorem ofFixedPoint_placesFixedPoint [Distances α] [SupremumDistances α] [GapScalar α]
    {recurrent inputWeights readoutWeights : Operand α} {point input : Given α}
    {settings : Settings α} {r : AnyReservoir α} (positive : Scalar.lt 0 settings.tolerance)
    (built : ofFixedPoint recurrent inputWeights readoutWeights point input settings = .ok r) :
    r.reservoir.PlacesFixedPoint recurrent inputWeights readoutWeights point input := by
  obtain ⟨d, parts, accepted, rfl⟩ := ofFixedPoint_eq_ok_iff.mp built
  exact Parts.placesFixedPoint accepted settings positive

/-- The fixed point one half, under the input one and with weights of one half and one quarter: the
sums come to one half as well, which is taken from the inverse activation without rounding, so
binary64 stays at the fixed point too. -/
theorem ofFixedPoint_placesFixedPoint_binary64 :
    let recurrent : Operand Float := .stored ⟨1, 1, .whole ⟨#v[0.5]⟩⟩
    let inputWeights : Operand Float := .view (.ofMatrix ⟨1, 1, .whole ⟨#v[0.25]⟩⟩)
    let readoutWeights : Operand Float := .stored ⟨0, 1, .zero⟩
    ∃ r : AnyReservoir Float,
      ofFixedPoint recurrent inputWeights readoutWeights (some #[0.5]) (some #[1]) .standard =
          .ok r ∧ r.reservoir.ExactAtFixedPoint ∧
        r.reservoir.PlacesFixedPoint recurrent inputWeights readoutWeights (some #[0.5])
          (some #[1]) := by
  intro recurrent inputWeights readoutWeights
  let parts : Parts Float ⟨1, 0, 1⟩ := ⟨⟨#v[0.5]⟩, ⟨#v[0.25]⟩, .zero, #v[0.5], #v[1]⟩
  have accepted : parts.AcceptedFrom recurrent inputWeights readoutWeights (some #[0.5])
      (some #[1]) := by
    constructor
    · exact Operand.toGrid_stored (by decide +kernel)
    · rfl
    · exact Operand.toSheet_stored (by decide +kernel)
    · exact Given.ofFinite_eq_ok_iff.mpr ⟨rfl, by decide +kernel⟩
    · exact Given.ofFinite_eq_ok_iff.mpr ⟨rfl, by decide +kernel⟩
    · decide +kernel
  have built : ofFixedPoint recurrent inputWeights readoutWeights (some #[0.5]) (some #[1])
      .standard = .ok ⟨_, parts.reservoir .standard⟩ := ofFixedPoint_of_accepted accepted
  refine ⟨_, built, ⟨?_, ?_⟩, ofFixedPoint_placesFixedPoint ?_ built⟩
  · decide +kernel
  · decide +kernel
  · decide +kernel

end Reservoir

end EchoState
