import EchoState.Proofs.Matrix.Representation
import EchoState.Proofs.Reservoir.Trace

/-!
# What a fixed-point constructor accepts

The constructor checks its operands one after another, and each of them in its own way, but whether
it succeeds depends only on the parts that it ends up with: it does exactly when every operand shows
a matrix or a vector of the right shape and of finite entries, and the fixed point lies inside the
domain of the inverse activation. The bias is computed from these parts and is not checked.
-/

namespace EchoState

variable {α : Type} [Scalar α]

namespace Operand

variable {rows cols : Nat}

theorem shows_of_toSheet {x : Operand α} {m : Sheet α rows cols}
    (accepted : x.toSheet rows cols = .ok m) : x.Shows m := by
  unfold toSheet at accepted
  cases x with
  | absent => cases accepted
  | stored s =>
      by_cases same : s.rows = rows ∧ s.cols = cols
      · simp only [dif_pos same, Outcome.bind_eq_ok_iff, Outcome.pure_eq_ok_iff] at accepted
        obtain ⟨_, _, rfl⟩ := accepted
        obtain ⟨storedRows, storedCols, sheet⟩ := s
        obtain ⟨rfl, rfl⟩ := same
        rw [Sheet.cast_rfl]
        rfl
      · simp only [dif_neg same] at accepted
        cases accepted
  | view v =>
      by_cases same : v.rows = rows ∧ v.cols = cols
      · simp only [if_pos same, Outcome.bind_eq_ok_iff, Outcome.pure_eq_ok_iff] at accepted
        obtain ⟨_, _, grid, copied, rfl⟩ := accepted
        exact ⟨same.1, same.2, View.read_of_copy_eq_ok copied⟩
      · simp only [if_neg same] at accepted
        cases accepted

/-- The operand shows a sheet with the cells of the grid. -/
def ShowsGrid (grid : Grid α rows cols) (x : Operand α) : Prop :=
  ∃ m : Sheet α rows cols, x.Shows m ∧ m.toGrid = grid

theorem showsGrid_of_toGrid {x : Operand α} {grid : Grid α rows cols}
    (accepted : x.toGrid rows cols = .ok grid) : x.ShowsGrid grid := by
  unfold toGrid at accepted
  simp only [Outcome.bind_eq_ok_iff, Outcome.pure_eq_ok_iff] at accepted
  obtain ⟨m, kept, rfl⟩ := accepted
  exact ⟨m, shows_of_toSheet kept, rfl⟩

end Operand

theorem Dims.ofInts?_natCast (d : Dims) :
    ofInts? d.inputs d.outputs d.latents = some d := by
  unfold ofInts?
  rw [if_neg (by omega)]
  rfl

namespace Reservoir

structure Parts (α : Type) (d : Dims) where
  recurrent : Grid α d.latents d.latents
  inputWeights : Grid α d.latents d.inputs
  readoutWeights : Sheet α d.outputs d.latents
  point : Vector α d.latents
  input : Vector α d.inputs

variable {d : Dims}

/-- The reservoir of zeros with the parts in place and the bias that holds the fixed point. -/
def Parts.reservoir (parts : Parts α d) (settings : Settings α) : Reservoir α d :=
  { blank d settings with
    recurrent := parts.recurrent
    inputWeights := parts.inputWeights
    readoutWeights := parts.readoutWeights
    input := parts.input }.anchor parts.point

/-- The parts are what the operands show, and the fixed point lies inside the domain of the inverse
activation. -/
structure Parts.AcceptedFrom (parts : Parts α d) (recurrent inputWeights readoutWeights : Operand α)
    (point input : Given α) : Prop where
  recurrent_eq : recurrent.toGrid d.latents d.latents = .ok parts.recurrent
  inputWeights_eq : inputWeights.toGrid d.latents d.inputs = .ok parts.inputWeights
  readoutWeights_eq : readoutWeights.toSheet d.outputs d.latents = .ok parts.readoutWeights
  point_eq : point.ofFinite d.latents = .ok parts.point
  input_eq : input.ofFinite d.inputs = .ok parts.input
  inside : ∀ i, ¬Scalar.le 1 (Scalar.abs (parts.point.get i))

theorem create_natCast (d : Dims) (settings : Settings α) :
    create d.inputs d.outputs d.latents settings = .ok ⟨d, blank d settings⟩ := by
  unfold create
  rw [Dims.ofInts?_natCast]

variable {recurrent inputWeights readoutWeights : Operand α} {point input : Given α}
  {settings : Settings α} {r : AnyReservoir α}

/-- What the constructor gives are accepted parts put in place. -/
theorem exists_parts_of_ofFixedPoint
    (built : ofFixedPoint recurrent inputWeights readoutWeights point input settings = .ok r) :
    ∃ (d : Dims) (parts : Parts α d),
      parts.AcceptedFrom recurrent inputWeights readoutWeights point input ∧
        r = ⟨d, parts.reservoir settings⟩ := by
  simp only [ofFixedPoint, assignRecurrent, assignInputWeights, assignReadoutWeights, assignInput,
    Outcome.within_eq_ok_iff, Outcome.bind_eq_ok_iff, Outcome.pure_eq_ok_iff,
    anchorWithin_eq_ok_iff] at built
  obtain ⟨_, _, _, _, _, _, _, _, ⟨d, zeros⟩, created, built⟩ := built
  obtain ⟨_, ⟨a, aAccepted, rfl⟩, _, ⟨b, bAccepted, rfl⟩, built⟩ := built
  obtain ⟨_, ⟨w, wAccepted, rfl⟩, p, pAccepted, built⟩ := built
  obtain ⟨_, ⟨x, xAccepted, rfl⟩, _, ⟨inside, rfl⟩, rfl⟩ := built
  obtain rfl : zeros = blank d settings := eq_blank_of_create created
  exact ⟨d, ⟨a, b, w, p, x⟩, ⟨aAccepted, bAccepted, wAccepted, pAccepted, xAccepted, inside⟩, rfl⟩

theorem ofFixedPoint_of_accepted {parts : Parts α d}
    (accepted : parts.AcceptedFrom recurrent inputWeights readoutWeights point input) :
    ofFixedPoint recurrent inputWeights readoutWeights point input settings =
      .ok ⟨d, parts.reservoir settings⟩ := by
  obtain ⟨a, aShown, _⟩ := Operand.showsGrid_of_toGrid accepted.recurrent_eq
  obtain ⟨b, bShown, _⟩ := Operand.showsGrid_of_toGrid accepted.inputWeights_eq
  have wShown := Operand.shows_of_toSheet accepted.readoutWeights_eq
  have square : recurrent.checkSquare = .ok () := by
    unfold Operand.checkSquare
    rw [aShown.rows_eq, aShown.cols_eq, if_pos rfl]
  have created : create inputWeights.cols readoutWeights.rows recurrent.rows settings =
      .ok ⟨d, blank d settings⟩ := by
    rw [bShown.cols_eq, wShown.rows_eq, aShown.rows_eq, create_natCast]
  simp only [ofFixedPoint, assignRecurrent, assignInputWeights, assignReadoutWeights, assignInput,
    Outcome.within_eq_ok_iff, Outcome.bind_eq_ok_iff, Outcome.pure_eq_ok_iff,
    anchorWithin_eq_ok_iff]
  exact ⟨(), aShown.checkPresent_eq, (), bShown.checkPresent_eq, (), wShown.checkPresent_eq, (),
    square, _, created, _, ⟨_, accepted.recurrent_eq, rfl⟩, _, ⟨_, accepted.inputWeights_eq, rfl⟩,
    _, ⟨_, accepted.readoutWeights_eq, rfl⟩, _, accepted.point_eq, _, ⟨_, accepted.input_eq, rfl⟩,
    _, ⟨accepted.inside, rfl⟩, rfl⟩

/-- The constructor succeeds exactly on accepted parts, and gives the reservoir of these parts. -/
theorem ofFixedPoint_eq_ok_iff :
    ofFixedPoint recurrent inputWeights readoutWeights point input settings = .ok r ↔
      ∃ (d : Dims) (parts : Parts α d),
        parts.AcceptedFrom recurrent inputWeights readoutWeights point input ∧
          r = ⟨d, parts.reservoir settings⟩ := by
  constructor
  · exact exists_parts_of_ofFixedPoint
  · rintro ⟨d, parts, accepted, rfl⟩
    exact ofFixedPoint_of_accepted accepted

end Reservoir

end EchoState
