import EchoState.Proofs.Reservoir.History
import EchoState.Proofs.Reservoir.Settling
import EchoState.Proofs.Reservoir.Step
import EchoState.Proofs.Scalar.Activation

/-!
# Settling from rest

Without recurrent weights and under the zero input, every state is followed by the one that the bias
alone leads to. A reservoir that starts at zero is there after one step, and its second step changes
nothing, so it settles in one step or in two; one step is enough exactly when the state it leads to
is everywhere below the tolerance.
-/

namespace EchoState

variable {α : Type} [Scalar α]

namespace Scalar

theorem isZero_zero [MeasuredScalar α] : isZero (0 : α) := by
  have number := isNaN_of_finite (MeasuredScalar.finite_zero (α := α))
  exact OrderedScalar.eq_iff.mpr ⟨OrderedScalar.le_refl number, OrderedScalar.le_refl number⟩

theorem zero_add_zero [MeasuredScalar α] [SignedZeroScalar α] : (0 : α) + 0 = 0 :=
  SignedZeroScalar.add_of_isZero isZero_zero SignedZeroScalar.zero_ne_neg_zero

end Scalar

/-! ## Gaps -/

namespace Distance

variable [DifferenceScalar α]

open DifferenceScalar

theorem abs_sub_self {x : α} (finite : Scalar.finite x) : Scalar.abs (x - x) = 0 := by
  rw [DifferenceScalar.sub_self finite, DifferenceScalar.abs_zero]

theorem gaps_zeros (s : List α) : gaps s (List.replicate s.length 0) = s.map Scalar.abs := by
  induction s with
  | nil => rfl
  | cons x rest ih =>
      rw [List.length_cons, List.replicate_succ, List.map_cons, ← ih, ← abs_zero_sub x]
      rfl

end Distance

theorem Machine.settle_of_reservoir [Distances α] {d : Dims} {m : Machine α d} {bound : Nat}
    {signals : Signals α} {maxSteps : Int} {ending : Option (Settled α)} {last : Reservoir α d}
    (settled : m.reservoir.settle bound signals maxSteps = (ending, last)) :
    ∃ after : Machine α d,
      m.settle bound signals maxSteps = (ending, after) ∧ after.reservoir = last := by
  have same := m.reservoir_settle bound signals maxSteps
  obtain ⟨first, second⟩ := Prod.ext_iff.mp (same.trans settled)
  exact ⟨_, Prod.ext first rfl, second⟩

/-! ## Steps without recurrent weights -/

namespace Reservoir

variable {d : Dims}

def held (r : Reservoir α d) : Vector α d.latents :=
  Vector.ofFn fun i => Scalar.tanh (r.bias.get i)

theorem get_held (r : Reservoir α d) (i : Fin d.latents) :
    r.held.get i = Scalar.tanh (r.bias.get i) :=
  Vector.getElem_ofFn i.isLt

theorem mem_held_iff {r : Reservoir α d} {x : α} :
    x ∈ r.held.toList ↔ ∃ i, Scalar.tanh (r.bias.get i) = x := by
  rw [Vector.mem_toList_iff, held, Vector.mem_ofFn]

/-- Neither the state nor the input takes part in the next state. -/
structure Decoupled (r : Reservoir α d) : Prop where
  recurrent_zero : ∀ i j, r.recurrent.get i j = 0
  input_zero : ∀ j, r.input.get j = 0
  bias_finite : ∀ i, Scalar.finite (r.bias.get i)
  bias_ne_neg_zero : ∀ i, r.bias.get i ≠ -0

/-- The first step from the zero state changes every entry by less than the tolerance. -/
def Quiet (r : Reservoir α d) : Prop :=
  ∀ i, Scalar.lt (Scalar.abs (Scalar.tanh (r.bias.get i))) r.settings.tolerance

/-- A decoupled reservoir at the zero state that has taken no step yet. -/
structure AtRest (r : Reservoir α d) : Prop extends Decoupled r where
  state_zero : r.state = Vector.replicate d.latents 0
  converged_eq : r.converged = false
  steps_zero : r.steps = 0
  tolerance_pos : Scalar.lt 0 r.settings.tolerance

theorem Decoupled.install {r : Reservoir α d} (decoupled : Decoupled r) (next : Vector α d.latents)
    (delta : α) : Decoupled (r.install next delta) :=
  { decoupled with }

section Steps

variable [Distances α]

def firstChange (r : Reservoir α d) : α :=
  change r.held (Vector.replicate d.latents 0)

def afterOne (r : Reservoir α d) : Reservoir α d :=
  r.install r.held r.firstChange

def afterTwo (r : Reservoir α d) : Reservoir α d :=
  r.afterOne.install r.held 0

theorem AtRest.converged_afterTwo {r : Reservoir α d} (atRest : AtRest r) :
    r.afterTwo.converged = true := by
  show (r.afterOne.converged || Scalar.lt 0 r.settings.tolerance) = true
  rw [atRest.tolerance_pos, Bool.or_true]

theorem AtRest.not_endsAt_zero {r : Reservoir α d} (atRest : AtRest r) (maxSteps : Int) :
    ¬EndsAt Reservoir.converged advance .never maxSteps r 0 := by
  simp [EndsAt, lostAt, stepped, atRest.converged_eq, Signals.never]

/-- An attempt goes on to the first count that can end it. -/
theorem settle_of_endsAt {r : Reservoir α d} {signals : Signals α} {maxSteps : Int}
    {last bound : Nat} (ends : EndsAt Reservoir.converged advance signals maxSteps r last)
    (earlier : ∀ i < last, ¬EndsAt Reservoir.converged advance signals maxSteps r i)
    (enough : last < bound) :
    r.settle bound signals maxSteps =
      (some ⟨last, failureAt Reservoir.converged advance signals r last⟩, stepped advance r last) :=
  settleLoop_of_endsAt ends rfl (Nat.zero_le last) (by omega) earlier

end Steps

variable [ActivationScalar α]

open ActivationScalar MeasuredScalar

namespace Decoupled

variable {r : Reservoir α d} (decoupled : Decoupled r)

include decoupled

theorem finite_held (i : Fin d.latents) : Scalar.finite (r.held.get i) := by
  rw [get_held]
  exact finite_tanh (decoupled.bias_finite i)

theorem rowDot_recurrent {state : Vector α d.latents} (finite : ∀ i, Scalar.finite (state.get i))
    (i : Fin d.latents) : r.recurrent.rowDot state i = 0 := by
  rw [Grid.rowDot_eq_sumWhere]
  apply Scalar.sumWhere_of_isZero
  intro j
  rw [decoupled.recurrent_zero]
  exact SignedZeroScalar.isZero_mul_left (finite j) Scalar.isZero_zero

theorem rowDot_input (i : Fin d.latents) : r.inputWeights.rowDot r.input i = 0 := by
  rw [Grid.rowDot_eq_sumWhere]
  apply Scalar.sumWhere_of_none
  intro j
  rw [decoupled.input_zero, Scalar.isZero_zero]
  rfl

theorem activation_eq {state : Vector α d.latents} (finite : ∀ i, Scalar.finite (state.get i)) :
    r.activation state r.input = r.held := by
  apply Vector.ext
  intro i inside
  have sum := DifferenceScalar.zero_add (decoupled.bias_ne_neg_zero ⟨i, inside⟩)
  simp only [activation, held, Vector.getElem_ofFn, decoupled.rowDot_recurrent finite,
    decoupled.rowDot_input, Scalar.zero_add_zero, sum]

variable [Distances α] [SupremumDistances α]

theorem change_held : change r.held r.held = 0 := by
  rw [change_of_bothFinite fun i => ⟨decoupled.finite_held i, decoupled.finite_held i⟩]
  apply Distance.supremum_self
  intro x isEntry
  obtain ⟨i, rfl⟩ := mem_held_iff.mp isEntry
  exact Distance.abs_sub_self (finite_tanh (decoupled.bias_finite i))

theorem firstChange_eq : r.firstChange = Distance.largest 0 (r.held.toList.map Scalar.abs) := by
  have zeros (i : Fin d.latents) : Scalar.finite ((Vector.replicate d.latents (0 : α)).get i) := by
    rw [Vector.get_replicate]
    exact finite_zero
  have sizes := Distance.gaps_zeros r.held.toList
  rw [Vector.length_toList] at sizes
  rw [firstChange, change_of_bothFinite fun i => ⟨zeros i, decoupled.finite_held i⟩,
    Vector.toList_replicate, Distance.supremum_eq_largest, sizes]

omit [Distances α] [SupremumDistances α] in
theorem isNaN_size {size : α} (isSize : size ∈ r.held.toList.map Scalar.abs) :
    Scalar.isNaN size = false := by
  obtain ⟨x, isEntry, rfl⟩ := List.mem_map.mp isSize
  obtain ⟨i, rfl⟩ := mem_held_iff.mp isEntry
  rw [isNaN_abs]
  exact Scalar.isNaN_of_finite (finite_tanh (decoupled.bias_finite i))

theorem isNaN_firstChange : Scalar.isNaN r.firstChange = false := by
  rw [decoupled.firstChange_eq]
  exact Distance.isNaN_largest (Scalar.isNaN_of_finite finite_zero) fun _ => decoupled.isNaN_size

theorem firstChange_lt_iff (positive : Scalar.lt 0 r.settings.tolerance) :
    Scalar.lt r.firstChange r.settings.tolerance ↔ r.Quiet := by
  rw [decoupled.firstChange_eq, Distance.largest_lt_iff (Scalar.isNaN_of_finite finite_zero)
    fun _ => decoupled.isNaN_size]
  constructor
  · rintro ⟨_, below⟩ i
    exact below _ (List.mem_map_of_mem (mem_held_iff.mpr ⟨i, rfl⟩))
  · intro quiet
    refine ⟨positive, fun size isSize => ?_⟩
    obtain ⟨x, isEntry, rfl⟩ := List.mem_map.mp isSize
    obtain ⟨i, rfl⟩ := mem_held_iff.mp isEntry
    exact quiet i

end Decoupled

section Settling

variable [Distances α]

namespace AtRest

variable {r : Reservoir α d} (atRest : AtRest r)

include atRest

theorem advance_eq : r.advance = (r.firstChange, r.afterOne) := by
  have finite (i : Fin d.latents) : Scalar.finite (r.state.get i) := by
    rw [atRest.state_zero, Vector.get_replicate]
    exact finite_zero
  have next := atRest.activation_eq finite
  unfold advance
  dsimp only
  rw [next, atRest.state_zero]
  rfl

theorem stepped_one : stepped advance r 1 = r.afterOne := by
  rw [stepped, stepped, atRest.advance_eq]

variable [SupremumDistances α]

theorem afterOne_advance_eq : r.afterOne.advance = (0, r.afterTwo) := by
  have decoupled : Decoupled r.afterOne := atRest.toDecoupled.install _ _
  have next : r.afterOne.activation r.held r.afterOne.input = r.held :=
    decoupled.activation_eq atRest.finite_held
  have none : change r.held r.held = 0 := atRest.change_held
  unfold advance
  dsimp only
  rw [show r.afterOne.state = r.held from rfl, next, none]
  rfl

theorem stepped_two : stepped advance r 2 = r.afterTwo := by
  rw [stepped, atRest.stepped_one, atRest.afterOne_advance_eq]

theorem lostAt_one : lostAt advance r 1 = false := by
  rw [lostAt, stepped, atRest.advance_eq]
  exact atRest.isNaN_firstChange

theorem lostAt_two : lostAt advance r 2 = false := by
  rw [lostAt, atRest.stepped_one, atRest.afterOne_advance_eq]
  exact Scalar.isNaN_of_finite finite_zero

theorem converged_afterOne_iff : r.afterOne.converged = true ↔ r.Quiet := by
  rw [← atRest.firstChange_lt_iff atRest.tolerance_pos]
  show (r.converged || Scalar.lt r.firstChange r.settings.tolerance) = true ↔ _
  rw [atRest.converged_eq, Bool.false_or]

theorem not_endsAt_one (loud : ¬r.Quiet) {maxSteps : Int} (budget : maxSteps ≠ 1) :
    ¬EndsAt Reservoir.converged advance .never maxSteps r 1 := by
  unfold EndsAt
  rw [atRest.lostAt_one, atRest.stepped_one, atRest.converged_afterOne_iff]
  rintro (lost | quiet | asked | ⟨positive, spent⟩)
  · cases lost
  · exact loud quiet
  · cases asked
  · omega

theorem settle_of_quiet (quiet : r.Quiet) {bound : Nat} (enough : 1 < bound) (maxSteps : Int) :
    r.settle bound .never maxSteps = (some ⟨1, none⟩, r.afterOne) := by
  have done : (stepped advance r 1).converged = true := by
    rw [atRest.stepped_one]
    exact atRest.converged_afterOne_iff.mpr quiet
  have earlier : ∀ i < 1, ¬EndsAt Reservoir.converged advance .never maxSteps r i := by
    intro i before
    obtain rfl : i = 0 := by omega
    exact atRest.not_endsAt_zero maxSteps
  rw [settle_of_endsAt (Or.inr (Or.inl done)) earlier enough,
    failureAt_of_converged atRest.lostAt_one done, atRest.stepped_one]

theorem settle_of_not_quiet (loud : ¬r.Quiet) {bound : Nat} (enough : 2 < bound) {maxSteps : Int}
    (budget : maxSteps ≠ 1) : r.settle bound .never maxSteps = (some ⟨2, none⟩, r.afterTwo) := by
  have done : (stepped advance r 2).converged = true := by
    rw [atRest.stepped_two]
    exact atRest.converged_afterTwo
  have earlier : ∀ i < 2, ¬EndsAt Reservoir.converged advance .never maxSteps r i := by
    intro i before
    obtain rfl | rfl : i = 0 ∨ i = 1 := by omega
    · exact atRest.not_endsAt_zero maxSteps
    · exact atRest.not_endsAt_one loud budget
  rw [settle_of_endsAt (Or.inr (Or.inl done)) earlier enough,
    failureAt_of_converged atRest.lostAt_two done, atRest.stepped_two]

/-- A budget of one step runs out on a reservoir that is not quiet. -/
theorem settle_one_of_not_quiet (loud : ¬r.Quiet) {bound : Nat} (enough : 1 < bound) :
    r.settle bound .never 1 =
      (some ⟨1, some ⟨[.task .settle], .notConverged⟩⟩, r.afterOne) := by
  have notDone : (stepped advance r 1).converged = false := by
    rw [atRest.stepped_one]
    exact Bool.eq_false_iff.mpr fun done => loud (atRest.converged_afterOne_iff.mp done)
  have spent : EndsAt Reservoir.converged advance .never 1 r 1 :=
    Or.inr (Or.inr (Or.inr ⟨by decide, by decide⟩))
  have earlier : ∀ i < 1, ¬EndsAt Reservoir.converged advance .never 1 r i := by
    intro i before
    obtain rfl : i = 0 := by omega
    exact atRest.not_endsAt_zero 1
  rw [settle_of_endsAt spent earlier enough, failureAt_of_spent atRest.lostAt_one notDone rfl,
    atRest.stepped_one]

end AtRest

/-- An attempt to settle takes a reservoir to the held state in one step or in two, unless its
budget is a single step and one is not enough. -/
structure SettlesByTwo (r : Reservoir α d) : Prop where
  /-- Without a budget, or with one of two steps at least, the attempt succeeds. -/
  settles : ∀ {bound : Nat} {maxSteps : Int}, 2 < bound → maxSteps ≤ 0 ∨ 2 ≤ maxSteps →
    ∃ (taken : Nat) (after : Machine α d),
      (Machine.ofReservoir r).settle bound .never maxSteps = (some ⟨taken, none⟩, after) ∧
        (taken = 1 ∨ taken = 2) ∧ after.reservoir.steps = taken ∧
        (∀ i, after.reservoir.state.get i = Scalar.tanh (r.bias.get i)) ∧
        (taken = 2 → after.reservoir.lastDelta = 0) ∧ (taken = 1 ↔ r.Quiet)
  settles_of_quiet : ∀ {bound : Nat}, 2 < bound → r.Quiet →
    ((Machine.ofReservoir r).settle bound .never 1).1 = some ⟨1, none⟩
  fails_of_not_quiet : ∀ {bound : Nat}, 2 < bound → ¬r.Quiet →
    ((Machine.ofReservoir r).settle bound .never 1).1 =
      some ⟨1, some ⟨[.task .settle], .notConverged⟩⟩

theorem AtRest.settlesByTwo [SupremumDistances α] {r : Reservoir α d} (atRest : AtRest r) :
    SettlesByTwo r where
  settles {bound maxSteps} enough budget := by
    have one : 1 < bound := Nat.lt_of_succ_lt enough
    have notOne : maxSteps ≠ 1 := by omega
    by_cases quiet : r.Quiet
    · obtain ⟨after, settled, same⟩ := Machine.settle_of_reservoir (m := .ofReservoir r)
        (atRest.settle_of_quiet quiet one maxSteps)
      refine ⟨1, after, settled, Or.inl rfl, ?_, ?_, nofun, iff_of_true rfl quiet⟩
      · rw [same]
        exact congrArg (· + 1) atRest.steps_zero
      · rw [same]
        exact r.get_held
    · obtain ⟨after, settled, same⟩ := Machine.settle_of_reservoir (m := .ofReservoir r)
        (atRest.settle_of_not_quiet quiet enough notOne)
      refine ⟨2, after, settled, Or.inr rfl, ?_, ?_, ?_, iff_of_false (by decide) quiet⟩
      · rw [same]
        exact congrArg (· + 2) atRest.steps_zero
      · rw [same]
        exact r.get_held
      · rw [same]
        exact fun _ => rfl
  settles_of_quiet {bound} enough quiet := by
    obtain ⟨after, settled, _⟩ := Machine.settle_of_reservoir (m := .ofReservoir r)
      (atRest.settle_of_quiet quiet (Nat.lt_of_succ_lt enough) 1)
    rw [settled]
  fails_of_not_quiet {bound} enough loud := by
    obtain ⟨after, settled, _⟩ := Machine.settle_of_reservoir (m := .ofReservoir r)
      (atRest.settle_one_of_not_quiet loud (Nat.lt_of_succ_lt enough))
    rw [settled]

end Settling

/-! ## Reservoirs of zeros -/

section Blank

variable {settings : Settings α} (positive : Scalar.lt 0 settings.tolerance)

include positive

theorem atRest_blank (d : Dims) : AtRest (blank d settings) where
  recurrent_zero i j := Grid.get_zero i j
  input_zero := Vector.get_replicate d.inputs 0
  bias_finite i := by
    rw [blank, Vector.get_replicate]
    exact finite_zero
  bias_ne_neg_zero i := by
    rw [blank, Vector.get_replicate]
    exact SignedZeroScalar.zero_ne_neg_zero
  state_zero := rfl
  converged_eq := rfl
  steps_zero := rfl
  tolerance_pos := positive

theorem quiet_blank (d : Dims) : (blank d settings).Quiet := by
  intro i
  rw [blank, Vector.get_replicate, tanh_zero, DifferenceScalar.abs_zero]
  exact positive

end Blank

theorem held_blank (d : Dims) (settings : Settings α) :
    (blank d settings).held = Vector.replicate d.latents 0 := by
  apply Vector.ext
  intro i inside
  simp [held, blank, tanh_zero]

end Reservoir

end EchoState
