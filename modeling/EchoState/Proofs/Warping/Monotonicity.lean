import EchoState.Proofs.Warping.Acceptance

/-!
# Wider bands and lower penalties

Options that allow more cells and charge less for a step never lead to a larger distance: cell by
cell the table under them is at most the table under the others. Outside the narrower band the other
cell is infinite, and inside both cells add their cost to the least of three amounts that compare in
the same way.
-/

namespace EchoState.Warping

namespace Options

variable {α : Type}

/-- The band of the first options lies in that of the second. -/
def BandWithin (narrow wide : Options α) : Prop :=
  wide.window = -1 ∨ 0 ≤ narrow.window ∧ narrow.window ≤ wide.window

/-- A cell in the narrower band is computed under the wider one too. -/
theorem BandWithin.outside_eq_false [Scalar α] {narrow wide : Options α}
    (within : BandWithin narrow wide) (narrowUsable : -1 ≤ narrow.window)
    (wideUsable : -1 ≤ wide.window) {i j : Nat} (inside : narrow.rule.outside i j = false) :
    wide.rule.outside i j = false := by
  rw [outside_rule_eq_false_iff narrow narrowUsable] at inside
  rw [outside_rule_eq_false_iff wide wideUsable]
  unfold BandWithin at within
  unfold InBand at inside ⊢
  omega

end Options

variable {α : Type} [Scalar α] [AdditiveScalar α] {n m : Nat} {grid : Fin n → Fin m → α}

open Scalar OrderedScalar AdditiveScalar

/-- Every cell of the recurrence is at most the cell under a narrower band and a higher penalty. -/
theorem Chargeable.value_le_value {narrow wide : Options α} (narrowly : Chargeable grid narrow)
    (widely : Chargeable grid wide)
    (computed : ∀ i j, narrow.rule.outside i j = false → wide.rule.outside i j = false)
    (lower : le wide.slopePenalty narrow.slopePenalty) (i j : Nat) (iLe : i ≤ n) (jLe : j ≤ m) :
    le (value wide.rule grid i j iLe jLe) (value narrow.rule grid i j iLe jLe) := by
  fun_induction value narrow.rule grid i j iLe jLe with
  | case1 =>
      rw [value_corner]
      exact zero_le_zero
  | case2 =>
      rw [value_top]
      exact le_inf zero_le_inf
  | case3 =>
      rw [value_left]
      exact le_inf zero_le_inf
  | case4 i j iLe jLe _ _ diagonal above left =>
      cases inside : narrow.rule.outside i j with
      | true =>
          rw [Rule.cell, if_pos inside]
          exact le_inf (widely.value_nonneg _ _ _ _)
      | false =>
          have gridNonneg := narrowly.grid_nonneg ⟨i, iLe⟩ ⟨j, jLe⟩
          have diagonalNonneg := widely.value_nonneg i j (Nat.le_of_lt iLe) (Nat.le_of_lt jLe)
          have aboveNonneg := widely.value_nonneg i (j + 1) (Nat.le_of_lt iLe) jLe
          have leftNonneg := widely.value_nonneg (i + 1) j iLe (Nat.le_of_lt jLe)
          rw [value_inner, Rule.cell, Rule.cell, inside, computed i j inside]
          apply add_le_add gridNonneg (le_refl (number_of_nonneg gridNonneg))
            (le_least diagonalNonneg (add_nonneg aboveNonneg widely.penalty_nonneg)
              (add_nonneg leftNonneg widely.penalty_nonneg))
          exact least_mono diagonal (add_le_add aboveNonneg above widely.penalty_nonneg lower)
            (add_le_add leftNonneg left widely.penalty_nonneg lower)

/-- Usable options with a wider band and a lower penalty give a distance that is no larger, over
every grid of costs from zero up and whatever the two storages are. -/
theorem align_distance_antitone (grid : Fin n → Fin m → α) (gridNonneg : ∀ i j, le 0 (grid i j))
    {narrow wide : Options α} (narrowUsable : narrow.Usable) (wideUsable : wide.Usable)
    (within : narrow.BandWithin wide) (lower : le wide.slopePenalty narrow.slopePenalty) :
    ∃ narrowPlan widePlan, narrow.plan = .ok narrowPlan ∧ wide.plan = .ok widePlan ∧
      le (align grid widePlan).distance (align grid narrowPlan).distance := by
  obtain ⟨narrowStorage, _, narrowPlanned⟩ := narrowUsable.exists_plan
  obtain ⟨wideStorage, _, widePlanned⟩ := wideUsable.exists_plan
  refine ⟨_, _, narrowPlanned, widePlanned, ?_⟩
  rw [align_distance, align_distance]
  exact (narrowUsable.chargeable gridNonneg).value_le_value (wideUsable.chargeable gridNonneg)
    (fun _ _ => within.outside_eq_false narrowUsable.window_usable wideUsable.window_usable) lower
    n m (Nat.le_refl n) (Nat.le_refl m)

/-- A band of one in the whole table against no band at half the penalty in one row, in binary64. -/
theorem align_distance_antitone_binary64 :
    let grid : Fin 2 → Fin 3 → Float := fun i j =>
      Scalar.abs (#v[0, 1].get i - #v[0, 1, 3].get j)
    let narrow : Options Float := ⟨1, 0.5, true, 0, 2⟩
    let wide : Options Float := ⟨-1, 0.25, false, 2, 2⟩
    narrow.BandWithin wide ∧ Scalar.le wide.slopePenalty narrow.slopePenalty = true ∧
      ∃ narrowPlan widePlan, narrow.plan = .ok narrowPlan ∧ wide.plan = .ok widePlan ∧
        Scalar.le (align grid widePlan).distance (align grid narrowPlan).distance = true := by
  intro grid narrow wide
  have gridNonneg : ∀ i j, Scalar.le 0 (grid i j) := by with_unfolding_all decide
  have narrowUsable : narrow.Usable :=
    ⟨by decide, by with_unfolding_all decide, by with_unfolding_all decide, ⟨.table, rfl⟩,
      fun _ => rfl⟩
  have wideUsable : wide.Usable :=
    ⟨by decide, by with_unfolding_all decide, by with_unfolding_all decide, ⟨.oneRow, rfl⟩, nofun⟩
  have lower : Scalar.le wide.slopePenalty narrow.slopePenalty = true := by
    with_unfolding_all decide
  exact ⟨Or.inl rfl, lower,
    align_distance_antitone grid gridNonneg narrowUsable wideUsable (Or.inl rfl) lower⟩

end EchoState.Warping
