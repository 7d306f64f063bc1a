import EchoState.Proofs.Reservoir.FixedPoint
import EchoState.Proofs.Scalar.Overflow

/-!
# Overflow in the bias of a fixed point

Every part of a reservoir that a caller hands over is checked to be finite. The bias that holds a
fixed point is computed, and it is stored unchecked: its operands may all be finite and accepted
while the sums at the fixed point overflow. What is taken from them is moderate, so an entry of the
bias is finite exactly where its sum is. It is no number or the opposite infinity elsewhere, and
such a bias could not have been handed over.
-/

namespace EchoState

open Binary64

namespace Reservoir

variable {d : Dims}

/-- The sum at the fixed point that an entry of the bias cancels. -/
def anchorSum (r : Reservoir Float d) (i : Fin d.latents) : Float :=
  (r.linearSums r.fixedPoint r.input).get i

/-- The bias overflows exactly where the sums at the fixed point do. -/
structure KeepsOverflow (r : Reservoir Float d) : Prop where
  finite_bias : ∀ i, Scalar.finite (r.bias.get i) = Scalar.finite (r.anchorSum i)
  isNaN_bias : ∀ i, Scalar.isNaN (r.bias.get i) = Scalar.isNaN (r.anchorSum i)
  bias_of_inf : ∀ i, r.anchorSum i = Scalar.inf → r.bias.get i = -Scalar.inf
  bias_of_neg_inf : ∀ i, r.anchorSum i = -Scalar.inf → r.bias.get i = Scalar.inf
  /-- The bias would be accepted from a caller only when no sum overflows. -/
  assignBias_iff : (∃ next, r.assignBias (some r.bias.toArray) = .ok next) ↔
    ∀ i, Scalar.finite (r.anchorSum i) = true

theorem assignBias_toArray_iff {α : Type} [Scalar α] {r : Reservoir α d}
    {bias : Vector α d.latents} :
    (∃ next, r.assignBias (some bias.toArray) = .ok next) ↔
      ∀ i, Scalar.finite (bias.get i) = true := by
  unfold assignBias
  simp only [replace_eq_ok_iff, Given.ofFinite_eq_ok_iff]
  rw [← allFinite_vector_iff]
  constructor
  · rintro ⟨_, accepted, ⟨same, finite⟩, _⟩
    obtain rfl : bias = accepted := Vector.toArray_inj.mp (Option.some.inj same)
    exact finite
  · intro finite
    exact ⟨_, bias, ⟨rfl, finite⟩, rfl⟩

theorem assignBias_eq_error {α : Type} [Scalar α] (r : Reservoir α d) {bias : Vector α d.latents}
    {i : Nat} (first : bias.toArray.findIdx? (fun value => !Scalar.finite value) = some i) :
    r.assignBias (some bias.toArray) =
      .error ⟨[.task (.assign .bias), .check .finiteVector, .index i], .notFinite⟩ := by
  have refused : Given.ofFinite (some bias.toArray) d.latents =
      .error ⟨[.check .finiteVector, .index i], .notFinite⟩ := by
    unfold Given.ofFinite
    rw [Given.ofLength_toArray, Outcome.within_ok, Outcome.ok_bind,
      checkFiniteVector_eq_error first]
    rfl
  unfold assignBias
  rw [refused]
  rfl

namespace Parts

variable {parts : Parts Float d} {recurrent inputWeights readoutWeights : Operand Float}
  {point input : Given Float}
  (accepted : parts.AcceptedFrom recurrent inputWeights readoutWeights point input)
  (settings : Settings Float)

include accepted

theorem keepsOverflow : (parts.reservoir settings).KeepsOverflow := by
  have moderate (i : Fin d.latents) := Elementary.abs_amount_atanh_le (finite_point accepted i)
    (Scalar.abs_lt_one (finite_point accepted i) (accepted.inside i))
  have preimage (i : Fin d.latents) := Elementary.finite_atanh (finite_point accepted i)
    (Scalar.abs_lt_one (finite_point accepted i) (accepted.inside i))
  have bias (i : Fin d.latents) : (parts.reservoir settings).bias.get i =
      Elementary.atanh (parts.point.get i) - (parts.reservoir settings).anchorSum i :=
    parts.bias_reservoir settings i
  have finite (i : Fin d.latents) : Scalar.finite ((parts.reservoir settings).bias.get i) =
      Scalar.finite ((parts.reservoir settings).anchorSum i) := by
    rw [bias]
    exact finite_sub_eq (preimage i) (moderate i) _
  constructor
  case finite_bias => exact finite
  case isNaN_bias =>
    intro i
    rw [bias]
    exact isNaN_sub_eq (preimage i) _
  case bias_of_inf =>
    intro i infinite
    rw [bias, infinite]
    exact sub_inf (preimage i)
  case bias_of_neg_inf =>
    intro i infinite
    rw [bias, infinite]
    exact sub_neg_inf (preimage i)
  case assignBias_iff =>
    rw [assignBias_toArray_iff]
    exact forall_congr' fun i => by rw [finite]

end Parts

/-- Whether operands are accepted for a fixed point does not depend on the sums that they give
there: sums that overflow are not an error, and the bias that is stored overflows with them. -/
theorem ofFixedPoint_keepsOverflow {parts : Parts Float d}
    {recurrent inputWeights readoutWeights : Operand Float} {point input : Given Float}
    (accepted : parts.AcceptedFrom recurrent inputWeights readoutWeights point input)
    (settings : Settings Float) :
    ofFixedPoint recurrent inputWeights readoutWeights point input settings =
        .ok ⟨d, parts.reservoir settings⟩ ∧
      (parts.reservoir settings).KeepsOverflow :=
  ⟨ofFixedPoint_of_accepted accepted, Parts.keepsOverflow accepted settings⟩

/-- Two latents with weights near the largest number: the recurrent terms of either latent overflow,
and the input terms of the second overflow the other way. -/
def overflowing : Parts Float ⟨2, 1, 2⟩ where
  recurrent := ⟨#v[1e308, 1e308, 1e308, 1e308]⟩
  inputWeights := ⟨#v[0, 0, -1e308, -1e308]⟩
  readoutWeights := .zero
  point := #v[0.9, 0.9]
  input := #v[1, 1]

theorem overflowing_accepted :
    overflowing.AcceptedFrom (.stored ⟨2, 2, .whole overflowing.recurrent⟩)
      (.stored ⟨2, 2, .whole overflowing.inputWeights⟩) (.stored ⟨1, 2, .zero⟩)
      (some #[0.9, 0.9]) (some #[1, 1]) where
  recurrent_eq := Operand.toGrid_stored (by decide +kernel)
  inputWeights_eq := Operand.toGrid_stored (by decide +kernel)
  readoutWeights_eq := Operand.toSheet_stored (by decide +kernel)
  point_eq := Given.ofFinite_eq_ok_iff.mpr ⟨rfl, by decide +kernel⟩
  input_eq := Given.ofFinite_eq_ok_iff.mpr ⟨rfl, by decide +kernel⟩
  inside := by decide +kernel

theorem ofFixedPoint_keepsOverflow_overflowing :
    (overflowing.reservoir .standard).anchorSum 0 = Scalar.inf ∧
      Scalar.isNaN ((overflowing.reservoir .standard).anchorSum 1) = true ∧
      (overflowing.reservoir .standard).KeepsOverflow :=
  ⟨by decide +kernel, by decide +kernel,
    (ofFixedPoint_keepsOverflow overflowing_accepted .standard).2⟩

/-- Finite operands can be accepted and give a bias that holds an infinity and what is no number,
and that is refused when a caller hands it over. -/
theorem ofFixedPoint_infinite_bias :
    ∃ r : Reservoir Float ⟨2, 1, 2⟩,
      ofFixedPoint (.stored ⟨2, 2, .whole overflowing.recurrent⟩)
          (.stored ⟨2, 2, .whole overflowing.inputWeights⟩) (.stored ⟨1, 2, .zero⟩)
          (some #[0.9, 0.9]) (some #[1, 1]) .standard = .ok ⟨_, r⟩ ∧
        r.bias.get 0 = -Scalar.inf ∧ Scalar.isNaN (r.bias.get 1) = true ∧
        r.assignBias (some r.bias.toArray) =
          .error ⟨[.task (.assign .bias), .check .finiteVector, .index 0], .notFinite⟩ := by
  refine ⟨_, ofFixedPoint_of_accepted overflowing_accepted, ?_, ?_, ?_⟩
  · decide +kernel
  · decide +kernel
  · exact assignBias_eq_error _ (by decide +kernel)

end Reservoir

end EchoState
