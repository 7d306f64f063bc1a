import EchoState.Proofs.Reservoir.Invariant
import EchoState.Proofs.Scalar.Absorption
import EchoState.Proofs.Scalar.Activation

/-!
# How far a discrete step is bounded

A step applies the activation to sums that are rounded, and the activation is rounded itself. So an
entry of the next state is no number exactly where its sum is none, which finite weights and a
finite state do not exclude: two infinite terms of opposite signs may meet. Every other entry lies
from minus one to one. It stays strictly inside while the sum is of moderate size, and is one of the
two ends when the sum is large.
-/

namespace EchoState.Elementary

open Binary64

theorem tanh_inf : tanh Scalar.inf = 1 ∧ tanh (-Scalar.inf) = -1 := by
  constructor <;> with_unfolding_all decide

theorem within_tanh_of_number {x : Float} (number : Scalar.isNaN x = false) :
    Within (tanh x) (some ⟨-1, 1⟩) := by
  by_cases finite : Scalar.finite x
  · exact within_tanh_of_finite finite
  · have one : Within 1 (some ⟨-1, 1⟩) :=
      (Within.constant 1).of_inside (by with_unfolding_all decide)
    have minusOne : Within (-1) (some ⟨-1, 1⟩) :=
      (Within.constant (-1)).of_inside (by with_unfolding_all decide)
    rcases infinite_of_not_finite number finite with rfl | rfl
    · rw [tanh_inf.1]
      exact one
    · rw [tanh_inf.2]
      exact minusOne

theorem isNaN_tanh (x : Float) : Scalar.isNaN (tanh x) = Scalar.isNaN x := by
  cases number : Scalar.isNaN x with
  | true => exact tanh_of_isNaN number
  | false => exact Scalar.isNaN_of_finite (within_tanh_of_number number).1

theorem abs_tanh_of_twenty_le {x : Float} (large : Scalar.le 20 (Scalar.abs x)) :
    Scalar.abs (tanh x) = 1 := by
  have far : x.abs ≥ 0.625 :=
    of_decide_eq_true (OrderedScalar.le_trans (α := Float) (by with_unfolding_all decide) large)
  have notBelow : ¬x.abs < 20 := by
    intro below
    exact (OrderedScalar.lt_iff.mp (decide_eq_true below)).2 large
  unfold tanh
  dsimp only
  rw [if_pos far, if_neg notBelow]
  split
  · with_unfolding_all decide
  · with_unfolding_all decide

end EchoState.Elementary

namespace EchoState

open Binary64

variable {α : Type} [Scalar α] {d : Dims}

/-- The sum that the activation of an entry is taken of in the next discrete step. -/
def Reservoir.preactivation (r : Reservoir α d) (i : Fin d.latents) : α :=
  (r.linearSums r.state r.input).get i + r.bias.get i

namespace Machine

/-- A discrete step puts the activation of its sum into every entry of the state. -/
theorem state_advance [Distances α] (bound : Nat) (m : Machine α d) (i : Fin d.latents) :
    (m.perform bound .advance).2.reservoir.state.get i =
      Scalar.tanh (m.reservoir.preactivation i) := by
  have stepped : (m.perform bound .advance).2.reservoir.state =
      activateInto m.reservoir m.spare m.reservoir.state m.reservoir.input := rfl
  rw [stepped, (m.reservoir.kernelsSucceed).activateInto_eq, Vector.get_eq_getElem,
    Vector.getElem_ofFn]
  rfl

/-- After a discrete step that follows any operations, an entry of the state is no number exactly
when its sum was none. Otherwise it is finite and from minus one to one, strictly inside when the
sum was up to eighteen in size, and at an end when it was twenty or more. -/
theorem state_bounded_after_advance (bound : Nat) (start : Machine Float d)
    (operations : List (Operation Float)) (i : Fin d.latents) :
    let before : Machine Float d := (start.performAll bound operations).2
    let sum : Float := before.reservoir.preactivation i
    let entry : Float := (before.perform bound .advance).2.reservoir.state.get i
    Scalar.isNaN entry = Scalar.isNaN sum ∧
      (Scalar.isNaN sum = false → Scalar.finite entry = true ∧ Scalar.le (Scalar.abs entry) 1) ∧
      (Scalar.le (Scalar.abs sum) 18 → Scalar.lt (Scalar.abs entry) 1) ∧
      (Scalar.le 20 (Scalar.abs sum) → Scalar.abs entry = 1) := by
  intro before sum entry
  have activated : entry = Elementary.tanh sum := before.state_advance bound i
  rw [activated]
  refine ⟨Elementary.isNaN_tanh sum, ?bounded, ?inside, Elementary.abs_tanh_of_twenty_le⟩
  case bounded =>
    intro number
    obtain ⟨finite, lower, upper⟩ := Elementary.within_tanh_of_number number
    refine ⟨finite, ?_⟩
    rw [le_iff_amount_le (finite_abs finite) finite_one, amount_abs, amount_one]
    exact abs_le.mpr ⟨lower, upper⟩
  case inside =>
    intro small
    have eighteen : amount 18 = 18 := by with_unfolding_all decide
    have eighteenFinite : Scalar.finite (18 : Float) = true := by with_unfolding_all decide
    have finite : Scalar.finite sum = true := by
      have number : Scalar.isNaN sum = false := by
        rw [← MeasuredScalar.isNaN_abs]
        exact (OrderedScalar.numbers_of_le small).1
      by_contra notFinite
      have large : Scalar.le (Scalar.abs sum) 18 = false := by
        rcases infinite_of_not_finite number notFinite with same | same
        · rw [same]
          with_unfolding_all decide
        · rw [same]
          with_unfolding_all decide
      rw [large] at small
      cases small
    rw [le_iff_amount_le (finite_abs finite) eighteenFinite, amount_abs, eighteen] at small
    obtain ⟨resultFinite, lower, upper⟩ := Elementary.within_tanh_of_le_eighteen finite small
    dsimp only at lower upper
    rw [lt_iff_amount_lt (finite_abs resultFinite) finite_one, amount_abs, amount_one]
    exact abs_lt.mpr ⟨by norm_num at lower ⊢; linarith, by norm_num at upper ⊢; linarith⟩

set_option maxRecDepth 4000 in
/-- Finite parts do not keep a state strictly inside: with a bias of thirty-two the activation is
rounded to one, and with weights and a state near the square root of the largest number two
infinite terms cancel. All the assignments that lead there are accepted. -/
theorem state_not_strictly_inside :
    let saturated := (ofReservoir (Reservoir.blank ⟨0, 1, 1⟩ Settings.standard)).performAll 0
      [.assignBias (some #[(32 : Float)])]
    let cancelled := (ofReservoir (Reservoir.blank ⟨0, 1, 2⟩ Settings.standard)).performAll 0
      [.assignRecurrent (.stored ⟨2, 2, .whole ⟨#v[1e200, -1e200, 0, 0]⟩⟩),
        .assignState (some #[(1e200 : Float), 1e200])]
    saturated.1 = [.done (.ok ())] ∧
      (saturated.2.perform 0 .advance).2.reservoir.state.get 0 = 1 ∧
      cancelled.1 = [.done (.ok ()), .done (.ok ())] ∧
      Scalar.isNaN ((cancelled.2.perform 0 .advance).2.reservoir.state.get 0) = true := by
  refine ⟨?_, ?_, ?_, ?_⟩
  · with_unfolding_all rfl
  · with_unfolding_all decide
  · with_unfolding_all rfl
  · decide +kernel

end Machine

end EchoState
