import EchoState.Proofs.Distance.Supremum
import EchoState.Proofs.Reservoir.Trace
import EchoState.Proofs.Scalar.Gap

/-!
# What a discrete step installs

A step computes every entry of the next state from the old one, although it writes the entries one
after another. The change it reports is the largest gap between the two states, and no number as
soon as either of them has an entry that is not finite; so the record of convergence is not misled
by gaps that the largest gap would pass over.
-/

namespace EchoState

variable {α : Type} [Scalar α]

/-- The terms of one row against a vector: the products for the entries of the vector that are not
zero, from left to right. -/
def Grid.terms {rows cols : Nat} (m : Grid α rows cols) (x : Vector α cols) (i : Fin rows) :
    List α :=
  ((List.finRange cols).filter fun j => !Scalar.isZero (x.get j)).map fun j =>
    m.get i j * x.get j

theorem Grid.rowDot_eq_foldl {rows cols : Nat} (m : Grid α rows cols) (x : Vector α cols)
    (i : Fin rows) : m.rowDot x i = (m.terms x i).foldl (· + ·) 0 := by
  unfold terms
  rw [rowDot_eq_sumWhere, Scalar.sumWhere_eq_foldl, List.foldl_map]

namespace Reservoir

variable {d : Dims}

/-- The entries of the next state, each from the whole old state. -/
theorem get_activation (r : Reservoir α d) (state : Vector α d.latents) (input : Vector α d.inputs)
    (i : Fin d.latents) :
    (r.activation state input).get i =
      Scalar.tanh ((r.recurrent.terms state i).foldl (· + ·) 0 +
        (r.inputWeights.terms input i).foldl (· + ·) 0 + r.bias.get i) := by
  rw [activation, Vector.get_ofFn, Grid.rowDot_eq_foldl, Grid.rowDot_eq_foldl]

/-! ## The change of state -/

def BothFinite (state next : Vector α d.latents) : Prop :=
  ∀ i, Scalar.finite (state.get i) ∧ Scalar.finite (next.get i)

def gap (state next : Vector α d.latents) (i : Fin d.latents) : α :=
  Scalar.abs (next.get i - state.get i)

theorem all_finite_iff {state next : Vector α d.latents} :
    (state.all Scalar.finite && next.all Scalar.finite) = true ↔ BothFinite state next := by
  rw [Bool.and_eq_true, Vector.all_eq_true, Vector.all_eq_true]
  exact ⟨fun both i => ⟨both.1 i i.isLt, both.2 i i.isLt⟩,
    fun both => ⟨fun i inside => (both ⟨i, inside⟩).1, fun i inside => (both ⟨i, inside⟩).2⟩⟩

theorem change_of_bothFinite [Distances α] [SupremumDistances α] {state next : Vector α d.latents}
    (finite : BothFinite state next) :
    change next state = Distance.supremum next.toList state.toList := by
  rw [change, if_pos (all_finite_iff.mpr finite)]
  exact SupremumDistances.between_inf (by rw [Vector.length_toList, Vector.length_toList])

theorem change_of_not_bothFinite [Distances α] {state next : Vector α d.latents}
    (notFinite : ¬BothFinite state next) : change next state = Scalar.nan := by
  rw [change, if_neg fun all => notFinite (all_finite_iff.mp all)]

theorem not_bothFinite_iff {state next : Vector α d.latents} :
    ¬BothFinite state next ↔
      ∃ i, Scalar.finite (state.get i) = false ∨ Scalar.finite (next.get i) = false := by
  unfold BothFinite
  simp only [not_forall, Classical.not_and_iff_not_or_not, Bool.not_eq_true]

section Finite

variable [GapScalar α] {state next : Vector α d.latents} (finite : BothFinite state next)

include finite

theorem mem_gaps_iff {size : α} :
    size ∈ Distance.gaps next.toList state.toList ↔ ∃ i, gap state next i = size := by
  rw [Distance.mem_gaps_toList]
  unfold gap
  have same (i : Fin d.latents) :
      Scalar.abs (state.get i - next.get i) = Scalar.abs (next.get i - state.get i) :=
    GapScalar.abs_sub_comm (finite i).1 (finite i).2
  simp only [same]

theorem isNaN_gap (i : Fin d.latents) : Scalar.isNaN (gap state next i) = false :=
  (MeasuredScalar.isNaN_abs _).trans (GapScalar.isNaN_sub (finite i).2 (finite i).1)

theorem isNaN_of_mem_gaps {size : α}
    (listed : size ∈ Distance.gaps next.toList state.toList) : Scalar.isNaN size = false := by
  obtain ⟨i, rfl⟩ := (mem_gaps_iff finite).mp listed
  exact isNaN_gap finite i

variable [Distances α] [SupremumDistances α]

theorem isNaN_change : Scalar.isNaN (change next state) = false := by
  rw [change_of_bothFinite finite, Distance.supremum_eq_largest]
  exact Distance.isNaN_largest (Scalar.isNaN_of_finite MeasuredScalar.finite_zero)
    fun _ => isNaN_of_mem_gaps finite

theorem gap_le_change (i : Fin d.latents) : Scalar.le (gap state next i) (change next state) := by
  rw [change_of_bothFinite finite, Distance.supremum_eq_largest]
  have above := Distance.le_largest (Scalar.isNaN_of_finite MeasuredScalar.finite_zero)
    fun _ => isNaN_of_mem_gaps finite
  exact above.2 _ ((mem_gaps_iff finite).mpr ⟨i, rfl⟩)

theorem change_eq_gap :
    d.latents = 0 ∧ change next state = 0 ∨ ∃ i, change next state = gap state next i := by
  have below := gap_le_change finite
  rw [change_of_bothFinite finite, Distance.supremum_eq_largest] at below ⊢
  rcases Distance.largest_eq_or_mem 0 (Distance.gaps next.toList state.toList) with same | listed
  · rw [same] at below ⊢
    rcases Nat.eq_zero_or_pos d.latents with none | some
    · exact Or.inl ⟨none, rfl⟩
    -- the maximum never left its start, so every gap is zero
    · exact Or.inr ⟨⟨0, some⟩, (GapScalar.abs_eq_zero (below ⟨0, some⟩)).symm⟩
  · obtain ⟨i, same⟩ := (mem_gaps_iff finite).mp listed
    exact Or.inr ⟨i, same.symm⟩

end Finite

section Steps

variable [Distances α] [SupremumDistances α] [GapScalar α] [AbsorbingScalar α]

/-- A change is no number exactly when one of the two states is not finite. -/
theorem isNaN_change_iff {state next : Vector α d.latents} :
    Scalar.isNaN (change next state) = true ↔
      ∃ i, Scalar.finite (state.get i) = false ∨ Scalar.finite (next.get i) = false := by
  rw [← not_bothFinite_iff]
  constructor
  · intro none finite
    exact Bool.false_ne_true ((isNaN_change finite).symm.trans none)
  · intro notFinite
    rw [change_of_not_bothFinite notFinite]
    exact AbsorbingScalar.isNaN_nan

/-- A change is below a bound exactly when every gap between finite states is. That the bound is
above zero is needed only when there is no gap at all. -/
theorem change_lt_iff {state next : Vector α d.latents} {bound : α}
    (positive : d.latents = 0 → Scalar.lt 0 bound) :
    Scalar.lt (change next state) bound ↔
      BothFinite state next ∧ ∀ i, Scalar.lt (gap state next i) bound := by
  constructor
  · intro below
    have finite : BothFinite state next := by
      by_contra notFinite
      rw [change_of_not_bothFinite notFinite,
        Scalar.lt_of_isNaN_left AbsorbingScalar.isNaN_nan] at below
      cases below
    exact ⟨finite, fun i => Scalar.lt_of_le_of_lt (gap_le_change finite i) below⟩
  · rintro ⟨finite, each⟩
    rcases change_eq_gap finite with ⟨none, same⟩ | ⟨i, same⟩
    · rw [same]
      exact positive none
    · rw [same]
      exact each i

end Steps

/-! ## Steps -/

/-- What a discrete step reports and installs. -/
structure IsStep (r : Reservoir α d) (delta : α) (next : Reservoir α d) : Prop where
  /-- Every entry is the activation of the sums over the old state, from left to right. -/
  get_state : ∀ i, next.state.get i =
    Scalar.tanh ((r.recurrent.terms r.state i).foldl (· + ·) 0 +
      (r.inputWeights.terms r.input i).foldl (· + ·) 0 + r.bias.get i)
  isNaN_delta_iff : Scalar.isNaN delta = true ↔
    ∃ i, Scalar.finite (r.state.get i) = false ∨ Scalar.finite (next.state.get i) = false
  le_delta : BothFinite r.state next.state → ∀ i, Scalar.le (gap r.state next.state i) delta
  delta_eq : BothFinite r.state next.state →
    d.latents = 0 ∧ delta = 0 ∨ ∃ i, delta = gap r.state next.state i
  converged_iff : next.converged = true ↔
    r.converged = true ∨ BothFinite r.state next.state ∧
      ∀ i, Scalar.lt (gap r.state next.state i) r.settings.tolerance
  rest_eq : next =
    { r with state := next.state, converged := next.converged, lastDelta := delta,
             steps := r.steps + 1 }

end Reservoir

/-- A discrete step of a machine, whatever its buffers hold, moves its reservoir by one step. -/
theorem Machine.isStep_advance [Distances α] [SupremumDistances α] [GapScalar α]
    [AbsorbingScalar α] {d : Dims} (m : Machine α d)
    (positive : d.latents = 0 → Scalar.lt 0 m.reservoir.settings.tolerance) :
    m.reservoir.IsStep m.advance.1 m.advance.2.reservoir := by
  rw [advance_eq]
  generalize m.reservoir = r at positive ⊢
  exact {
    get_state := r.get_activation r.state r.input
    isNaN_delta_iff := Reservoir.isNaN_change_iff
    le_delta := fun finite => Reservoir.gap_le_change finite
    delta_eq := fun finite => Reservoir.change_eq_gap finite
    converged_iff := by
      show (r.converged || Scalar.lt _ r.settings.tolerance) = true ↔ _
      rw [Bool.or_eq_true]
      exact or_congr_right (Reservoir.change_lt_iff positive)
    rest_eq := rfl }

/-- From one half and a quarter below zero, a reservoir of zeros goes to zero in one step, and its
change of one half is below a tolerance of three quarters. -/
theorem Machine.isStep_advance_binary64 :
    let settings : Settings Float := { Settings.standard with tolerance := 0.75 }
    let m := Machine.ofReservoir
      { Reservoir.blank ⟨0, 0, 2⟩ settings with state := #v[0.5, -0.25] }
    m.reservoir.IsStep m.advance.1 m.advance.2.reservoir ∧ m.advance.1 = 0.5 ∧
      m.advance.2.reservoir.converged = true := by
  intro settings m
  refine ⟨m.isStep_advance nofun, ?_, ?_⟩
  · with_unfolding_all decide
  · with_unfolding_all decide

/-- An entry that is no number keeps a step from converging, however little the others change. -/
example :
    let m := Machine.ofReservoir
      { Reservoir.blank ⟨0, 0, 2⟩ (Settings.standard (α := Float)) with state := #v[0.0 / 0.0, 0] }
    Scalar.isNaN m.advance.1 = true ∧ m.advance.2.reservoir.converged = false := by
  decide +kernel

end EchoState
