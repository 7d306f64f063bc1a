import EchoState.Proofs.Reservoir.Samples
import EchoState.Proofs.Scalar.Unrounded
import Mathlib.Tactic.LinearCombination

/-!
# Relaxation

In exact arithmetic, and without recurrent weights, the activation under a constant input does not
depend on the state, so every entry of the state goes its own way towards its activation. An
integration step multiplies the distance that is left by the exponential series up to its fourth
power, at minus the time step times the rate. This pins down every weight and every stage of the
integration rule.
-/

namespace EchoState

/-- The exponential series at the negative of a number, up to the fourth power:
`1 - h + h² / 2 - h³ / 6 + h⁴ / 24`. -/
def decay {R : Type} [CommRing R] [Invertible (2 : R)] [Invertible (6 : R)] (h : R) : R :=
  1 - h + ⅟2 * h ^ 2 - ⅟6 * h ^ 3 + ⅟2 * ⅟2 * ⅟6 * h ^ 4

variable {R : Type} [CommRing R] {activation : R → R}

theorem Unrounded.allFinite (values : Array (Unrounded R activation)) : AllFinite values :=
  fun value _ => finite_value value

theorem Grid.value_rowDot {rows cols : Nat} (m : Grid (Unrounded R activation) rows cols)
    (x : Vector (Unrounded R activation) cols) (i : Fin rows) :
    (m.rowDot x i).value = ∑ j, (m.get i j).value * (x.get j).value := by
  refine Unrounded.value_sumWhere cols fun j left => ?_
  have zero : (x.get j).value = 0 := Unrounded.isZero_iff.mp (by simpa using left)
  rw [Unrounded.value_mul, zero, mul_zero]

namespace Reservoir

theorem value_addScaled {n : Nat} (y : Vector (Unrounded R activation) n)
    (factor : Unrounded R activation) (s : Vector (Unrounded R activation) n) (i : Fin n) :
    ((addScaled y factor s).get i).value =
      (y.get i).value + factor.value * (s.get i).value := by
  unfold addScaled
  rw [Vector.get_ofFn, Unrounded.value_add, Unrounded.value_mul]

variable {d : Dims} (r : Reservoir (Unrounded R activation) d)
  (x : Vector (Unrounded R activation) d.inputs)

/-- What the activation of an entry is under an input when there are no recurrent weights. -/
def restValue (i : Fin d.latents) : R :=
  activation (∑ j, (r.inputWeights.get i j).value * (x.get j).value + (r.bias.get i).value)

def pace : R :=
  r.settings.timescale.value * r.settings.gamma.value

def relaxed [Invertible (2 : R)] [Invertible (6 : R)] (steps : Nat) :
    Vector (Unrounded R activation) d.latents :=
  Vector.ofFn fun i =>
    ⟨r.restValue x i + ((r.state.get i).value - r.restValue x i) * decay r.pace ^ steps⟩

section

variable [Invertible (2 : R)] [Invertible (6 : R)] {r x}

theorem value_relaxed (steps : Nat) (i : Fin d.latents) :
    ((r.relaxed x steps).get i).value =
      r.restValue x i + ((r.state.get i).value - r.restValue x i) * decay r.pace ^ steps := by
  unfold relaxed
  rw [Vector.get_ofFn]

theorem eq_relaxed {state : Vector (Unrounded R activation) d.latents} {steps : Nat}
    (entries : ∀ i, (state.get i).value =
      r.restValue x i + ((r.state.get i).value - r.restValue x i) * decay r.pace ^ steps) :
    state = r.relaxed x steps :=
  Vector.ext fun i inside => Unrounded.ext <|
    (entries ⟨i, inside⟩).trans (value_relaxed steps ⟨i, inside⟩).symm

end

variable {r} (unconnected : ∀ i j, r.recurrent.get i j = 0)

include unconnected

theorem value_activation (state : Vector (Unrounded R activation) d.latents)
    (i : Fin d.latents) : ((r.activation state x).get i).value = r.restValue x i := by
  have noRecurrence : (r.recurrent.rowDot state i).value = 0 := by
    rw [Grid.value_rowDot]
    exact Finset.sum_eq_zero fun j _ => by rw [unconnected, Unrounded.value_zero, zero_mul]
  unfold Reservoir.activation restValue
  rw [Vector.get_ofFn, Unrounded.value_tanh, Unrounded.value_add, Unrounded.value_add,
    noRecurrence, zero_add, Grid.value_rowDot]

theorem value_drift (state : Vector (Unrounded R activation) d.latents) (i : Fin d.latents) :
    ((r.drift state x).get i).value = (r.restValue x i - (state.get i).value) * r.pace := by
  unfold drift pace
  rw [Vector.get_ofFn, Unrounded.value_mul, Unrounded.value_sub, Unrounded.value_mul,
    value_activation x unconnected]

variable [Invertible (2 : R)] [Invertible (6 : R)]

/-- One step multiplies the distance from rest by the decay. -/
theorem value_flow (state : Vector (Unrounded R activation) d.latents) (i : Fin d.latents) :
    ((r.flow state (.held x)).get i).value =
      r.restValue x i + ((state.get i).value - r.restValue x i) * decay r.pace := by
  have half : (Scalar.ratio 1 2 : Unrounded R activation).value = ⅟2 := by
    rw [Unrounded.value_ratio 1 Nat.cast_ofNat, Nat.cast_one, one_mul]
  have sixth : (Scalar.ratio 1 6 : Unrounded R activation).value = ⅟6 := by
    rw [Unrounded.value_ratio 1 Nat.cast_ofNat, Nat.cast_one, one_mul]
  have third : (Scalar.ratio 2 6 : Unrounded R activation).value = 2 * ⅟6 := by
    rw [Unrounded.value_ratio 2 Nat.cast_ofNat, Nat.cast_ofNat]
  have two : (2 : R) * ⅟2 = 1 := mul_invOf_self 2
  have six : (6 : R) * ⅟6 = 1 := mul_invOf_self 6
  unfold flow StageInputs.held
  simp only [value_addScaled, value_drift x unconnected, half, sixth, third, Unrounded.value_one]
  unfold decay
  generalize r.restValue x i = rest, (state.get i).value = value, r.pace = h, (⅟2 : R) = a,
    (⅟6 : R) = b at two six ⊢
  -- the powers of `h` up to the third agree by the two divisions, the fourth as it stands
  linear_combination (rest - value) * (h - a * h ^ 2) * six +
    (rest - value) * (b * h ^ 2 + b * (a + 1) * h ^ 3) * two

theorem flowAlong_replicate (steps : Nat) :
    r.flowAlong r.state (List.replicate steps x) = r.relaxed x steps := by
  induction steps with
  | zero => exact eq_relaxed fun i => by rw [pow_zero, mul_one, add_sub_cancel]; rfl
  | succ steps ih =>
      rw [List.replicate_succ', flowAlong_append, ih]
      refine eq_relaxed fun i => (value_flow x unconnected (r.relaxed x steps) i).trans ?_
      rw [value_relaxed, add_sub_cancel_left, mul_assoc, ← pow_succ]

end Reservoir

namespace Machine

variable [Invertible (2 : R)] [Invertible (6 : R)] {d : Dims}

/-- Without recurrent weights, in exact arithmetic and under a constant input, a step of a reservoir
whose weights can be counted and a simulation of any length that can be recorded succeed. They
change the state alone, and multiply the distance of each of its entries from its activation by the
decay, once for each step. -/
theorem relaxes (m : Machine (Unrounded R activation) d)
    (unconnected : ∀ i j, m.reservoir.recurrent.get i j = 0)
    (x : Vector (Unrounded R activation) d.inputs) :
    (d.Countable → (m.propagate (.held (some x.toArray))).1 = .ok () ∧
      (m.propagate (.held (some x.toArray))).2.reservoir =
        { m.reservoir with state := m.reservoir.relaxed x 1 }) ∧
    ∀ steps, d.Recordable (steps + 1) →
      let samples := List.replicate (steps + 1) (some x.toArray)
      (∃ matrix, (m.simulate samples).1 = .ok matrix) ∧
        (m.simulate samples).2.reservoir =
          { m.reservoir with state := m.reservoir.relaxed x steps } := by
  have flows := Reservoir.flowAlong_replicate x unconnected
  constructor
  · intro _
    have accepted : Given.ofFinite (some x.toArray) d.inputs = .ok x :=
      Given.ofFinite_eq_ok_iff.mpr ⟨rfl, Unrounded.allFinite _⟩
    have step : m.reservoir.propagate (.held (some x.toArray)) =
        .ok { m.reservoir with state := m.reservoir.relaxed x 1 } := by
      rw [← flows 1]
      exact (Reservoir.propagate_held accepted).1 (Unrounded.allFinite _)
    obtain ⟨answered, left⟩ := m.propagate_eq (.held (some x.toArray))
    rw [step] at answered left
    exact ⟨answered, left⟩
  · intro steps _ samples
    have stays : ¬m.reservoir.Diverges (List.replicate (steps + 1) x) := by
      rintro ⟨_, _, notFinite⟩
      exact notFinite (Unrounded.allFinite _)
    obtain ⟨answered, left⟩ := simulate_of_not_diverges (fun _ _ => Unrounded.allFinite _)
      List.map_replicate.symm stays
    refine ⟨⟨_, answered⟩, left.trans ?_⟩
    rw [List.length_replicate, List.take_replicate, Nat.add_sub_cancel,
      Nat.min_eq_left (Nat.le_succ steps), flows]

/-- An entry drawn from three towards one, the cube of one being one, at pace one: two steps leave
nine parts in sixty-four of the distance. -/
theorem relaxes_towards_one :
    let settings : Settings (Unrounded ℚ (· ^ 3)) := ⟨⟨1⟩, ⟨1 / 2⟩, ⟨2⟩⟩
    let r := { Reservoir.blank ⟨1, 1, 1⟩ settings with
      state := #v[⟨3⟩], bias := #v[⟨-1⟩], inputWeights := ⟨#v[⟨2⟩]⟩ }
    let simulated := (ofReservoir r).simulate (List.replicate 3 (some #[⟨1⟩]))
    (∀ i j, r.recurrent.get i j = 0) ∧ (∃ matrix, simulated.1 = .ok matrix) ∧
      simulated.2.reservoir.state = #v[⟨1 + (3 - 1) * (9 / 64)⟩] := by
  intro settings r simulated
  let _ : Invertible (2 : ℚ) := invertibleOfNonzero two_ne_zero
  let _ : Invertible (6 : ℚ) := invertibleOfNonzero (by norm_num)
  have unconnected : ∀ i j, r.recurrent.get i j = 0 := Grid.get_zero
  have recordable : Dims.Recordable ⟨1, 1, 1⟩ 3 :=
    ⟨⟨by decide, by decide, by decide⟩, by decide, by decide⟩
  obtain ⟨succeeds, left⟩ := ((ofReservoir r).relaxes unconnected #v[⟨1⟩]).2 2 recordable
  have rest : r.restValue #v[⟨1⟩] 0 = 1 := by
    show (∑ _ : Fin 1, 2 * 1 + -1) ^ 3 = (1 : ℚ)
    norm_num
  have kept : decay r.pace = 3 / 8 := by
    show decay (1 / 2 * 2 : ℚ) = 3 / 8
    norm_num [decay]
  refine ⟨unconnected, succeeds, (congrArg Reservoir.state left).trans ?_⟩
  refine (Reservoir.eq_relaxed fun i => ?_).symm
  obtain rfl : i = 0 := Subsingleton.elim _ _
  show (1 + (3 - 1) * (9 / 64) : ℚ) =
    r.restValue #v[⟨1⟩] 0 + (3 - r.restValue #v[⟨1⟩] 0) * decay r.pace ^ 2
  rw [rest, kept]
  norm_num

end Machine

end EchoState
