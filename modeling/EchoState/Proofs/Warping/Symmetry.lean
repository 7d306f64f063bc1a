import EchoState.Proofs.Distance.Norms
import EchoState.Proofs.Warping.Backtracking

/-!
# Alignments do not depend on the order of their sides

Exchanging the two sides of an alignment flips its grid of costs and with it the whole table. A cell
takes the least of the same three amounts then, in another order: the amounts are numbers, so the
least of them is numerically the same, and no cell is the negative zero, so it is the same value.
Over such costs no walk back is lost in either order, though ties may lead to different paths.
-/

namespace EchoState.Warping

theorem outside_comm {α : Type} (rule : Rule α) (i j : Nat) :
    rule.outside i j = rule.outside j i := by
  unfold Rule.outside
  rw [Nat.add_comm (i - j)]

section Flip

variable {α : Type} [Scalar α] {n m : Nat} {grid : Fin n → Fin m → α} {options : Options α}

theorem Chargeable.exchange (charges : Chargeable grid options) : Chargeable (flip grid) options :=
  ⟨fun j i => charges.grid_nonneg i j, charges.penalty_nonneg⟩

variable [AdditiveScalar α] [DiscreteScalar α]

open Scalar

/-- The table of the flipped grid is the flipped table. -/
theorem Chargeable.value_flip (charges : Chargeable grid options) (i j : Nat) (iLe : i ≤ n)
    (jLe : j ≤ m) :
    value options.rule (flip grid) j i jLe iLe = value options.rule grid i j iLe jLe := by
  induction i generalizing j with
  | zero => cases j <;> simp
  | succ i above =>
      induction j with
      | zero => simp
      | succ j left =>
          by_cases outside : options.rule.outside i j = true
          · rw [value_inner, value_inner, Rule.cell, Rule.cell, if_pos outside,
              if_pos (by rwa [outside_comm])]
          · have diagonalNonneg := charges.value_nonneg i j (Nat.le_of_succ_le iLe)
              (Nat.le_of_succ_le jLe)
            have aboveNonneg := add_nonneg (charges.value_nonneg i (j + 1)
              (Nat.le_of_succ_le iLe) jLe) charges.penalty_nonneg
            have leftNonneg := add_nonneg (charges.value_nonneg (i + 1) j iLe
              (Nat.le_of_succ_le jLe)) charges.penalty_nonneg
            apply DiscreteScalar.eq_of_eq ?_ (value_ne_neg_zero _ _ _ _ _ _)
              (value_ne_neg_zero _ _ _ _ _ _)
            -- The diagonal neighbour stays, the two others change places.
            rw [value_inner, value_inner, Rule.cell, Rule.cell, if_neg outside,
              if_neg (by rwa [outside_comm]), above, above, left]
            apply add_eq_add_left (charges.grid_nonneg _ _)
              (le_least diagonalNonneg leftNonneg aboveNonneg)
              (le_least diagonalNonneg aboveNonneg leftNonneg)
            exact least_swap (number_of_nonneg diagonalNonneg) (number_of_nonneg leftNonneg)
              (number_of_nonneg aboveNonneg)

/-- Alignments over a grid and over the flipped grid have one distance. -/
theorem Chargeable.align_flip_distance (charges : Chargeable grid options) (storage : Storage) :
    (align (flip grid) ⟨options.rule, storage, options.wantsPath, options.norm⟩).distance =
      (align grid ⟨options.rule, storage, options.wantsPath, options.norm⟩).distance := by
  rw [align_distance, align_distance]
  exact charges.value_flip n m (Nat.le_refl n) (Nat.le_refl m)

end Flip

theorem gapGrid_flip {α : Type} [Scalar α] {a b : Array α}
    (comm : ∀ x ∈ a, ∀ y ∈ b, Scalar.abs (x - y) = Scalar.abs (y - x)) :
    gapGrid b a = flip (gapGrid a b) := by
  funext j i
  exact (comm a[i] (Array.getElem_mem i.isLt) b[j] (Array.getElem_mem j.isLt)).symm

theorem sampleGrid_flip {α : Type} [Scalar α] [Distances α] [SymmetricDistances α] (norm : α)
    {left right : Array (List α)} {channels : Nat} (leftLong : ∀ s ∈ left, s.length = channels)
    (rightLong : ∀ t ∈ right, t.length = channels) :
    sampleGrid norm right left = flip (sampleGrid norm left right) := by
  funext j i
  apply SymmetricDistances.between_comm
  exact (rightLong right[j] (Array.getElem_mem j.isLt)).trans
    (leftLong left[i] (Array.getElem_mem i.isLt)).symm

theorem gapGrid_nonneg_of_numbers {a b : Array Float}
    (numbers : ∀ x ∈ a, ∀ y ∈ b, Scalar.isNaN (Scalar.abs (x - y)) = false) (i : Fin a.size)
    (j : Fin b.size) : Scalar.le 0 (gapGrid a b i j) := by
  have number := numbers a[i] (Array.getElem_mem i.isLt) b[j] (Array.getElem_mem j.isLt)
  exact Distance.neverNegative_abs _ number

/-- Aligning two series in either order has one outcome: the same distance, or the same error. -/
theorem series_distance_comm {a b : Array Float}
    (numbers : ∀ x ∈ a, ∀ y ∈ b, Scalar.isNaN (Scalar.abs (x - y)) = false)
    (options : Option (Options Float)) :
    (series a b options).map Alignment.distance = (series b a options).map Alignment.distance := by
  have gridNonneg := gapGrid_nonneg_of_numbers numbers
  have flipped : gapGrid b a = flip (gapGrid a b) :=
    gapGrid_flip fun x _ y _ => Binary64.abs_sub_comm x y
  by_cases some : a ≠ #[] ∧ b ≠ #[]
  case neg =>
    rw [series_of_empty some, series_of_empty (mt And.symm some)]
  case pos =>
    cases resolved : Options.resolve options with
    | error error =>
        unfold series
        rw [resolved, Bool.or_comm]
        split <;> rfl
    | ok plan =>
        obtain ⟨usable, storage, _, rfl⟩ := Options.plan_eq_ok_iff.mp resolved
        have charges := usable.chargeable gridNonneg
        have flippedNonneg : ∀ j i, Scalar.le 0 (gapGrid b a j i) := by
          rw [flipped]
          exact charges.exchange.grid_nonneg
        rw [series_of_nonneg some.1 some.2 gridNonneg usable resolved,
          series_of_nonneg some.2 some.1 flippedNonneg usable resolved, flipped]
        exact congrArg Except.ok (charges.align_flip_distance storage).symm

section Trajectories

variable {α : Type} [Scalar α] [Distances α] {a b : Operand α} {options : Option (Options α)}
  (alignable : Alignable a b (options.getD .standard))
  (nonneg : ∀ left right, columns a = .ok left → columns b = .ok right →
    ∀ s ∈ left, ∀ t ∈ right,
      Scalar.le 0 (Distances.between (options.getD .standard).norm s t))

include alignable nonneg

theorem Alignable.charges {left right : Array (List α)} (leftRead : columns a = .ok left)
    (rightRead : columns b = .ok right) :
    Chargeable (sampleGrid (options.getD .standard).norm left right) (options.getD .standard) :=
  alignable.usable.chargeable fun i j => nonneg left right leftRead rightRead left[i]
    (Array.getElem_mem i.isLt) right[j] (Array.getElem_mem j.isLt)

/-- Trajectories that can be aligned are aligned in either order, at the same distance. -/
theorem Alignable.exists_both [AdditiveScalar α] [DiscreteScalar α] [SymmetricDistances α] :
    ∃ alignment other, trajectories a b options = .ok alignment ∧
      trajectories b a options = .ok other ∧ other.distance = alignment.distance := by
  obtain ⟨left, leftRead⟩ := alignable.left_read
  obtain ⟨right, rightRead⟩ := alignable.right_read
  obtain ⟨storage, _, planned⟩ := alignable.usable.exists_plan
  have charges := alignable.charges nonneg leftRead rightRead
  have rightLong := length_of_columns rightRead
  rw [← alignable.channels] at rightLong
  have flipped := sampleGrid_flip (options.getD .standard).norm (length_of_columns leftRead)
    rightLong
  have leftSome : left.size ≠ 0 := by
    have size := size_of_columns leftRead
    have samples := alignable.left_samples
    omega
  have rightSome : right.size ≠ 0 := by
    have size := size_of_columns rightRead
    have samples := alignable.right_samples
    omega
  have windowUsable := alignable.usable.window_usable
  refine ⟨_, _, trajectories_eq_ok_iff.mpr ⟨alignable.toComparable, _, planned,
      alignable.norm_number, alignable.norm_large, left, right, leftRead, rightRead,
      charges.not_lost windowUsable leftSome rightSome storage, rfl⟩,
    trajectories_eq_ok_iff.mpr ⟨alignable.toComparable.symm, _, planned, alignable.norm_number,
      alignable.norm_large, right, left, rightRead, leftRead, ?_, rfl⟩, ?_⟩
  · rw [flipped]
    exact charges.exchange.not_lost windowUsable rightSome leftSome storage
  · rw [flipped]
    exact charges.align_flip_distance storage

end Trajectories

/-- Exchanging the two sides of an alignment leaves its distance as it is, under all options. Of two
series without a gap that is no number, either order has one outcome, and it is a distance when both
have samples and the options are usable. So do trajectories without a sample distance that is no
number, but that their errors may name the sides; a distance of samples is symmetric as it is. -/
theorem distance_regardless_of_order (options : Option (Options Float)) :
    (∀ a b : Array Float, (∀ x ∈ a, ∀ y ∈ b, Scalar.isNaN (Scalar.abs (x - y)) = false) →
      (series a b options).map Alignment.distance =
          (series b a options).map Alignment.distance ∧
        (a ≠ #[] → b ≠ #[] → (options.getD .standard).Usable → (series a b options).isOk)) ∧
      ∀ a b : Operand Float,
        Distance.PowerFree (options.getD .standard).norm ∨ Distance.PowersNeverNegative →
        (∀ left right, columns a = .ok left → columns b = .ok right →
          ∀ s ∈ left, ∀ t ∈ right,
            Scalar.isNaN (Distance.ofOrder (options.getD .standard).norm s t) = false) →
        (trajectories a b options).toOption.map Alignment.distance =
            (trajectories b a options).toOption.map Alignment.distance ∧
          (Alignable a b (options.getD .standard) → (trajectories a b options).isOk) := by
  constructor
  · intro a b numbers
    refine ⟨series_distance_comm numbers options, fun aSome bSome usable => ?_⟩
    obtain ⟨storage, _, planned⟩ := usable.exists_plan
    exact Outcome.isOk_iff.mpr
      ⟨_, series_of_nonneg aSome bSome (gapGrid_nonneg_of_numbers numbers) usable planned⟩
  · intro a b norm numbers
    have both (alignable : Alignable a b (options.getD .standard)) :=
      alignable.exists_both fun left right leftRead rightRead s inLeft t inRight =>
        Distance.neverNegative_ofOrder norm alignable.norm_number alignable.norm_large s t
          (numbers left right leftRead rightRead s inLeft t inRight)
    constructor
    · by_cases alignable : Alignable a b (options.getD .standard)
      · obtain ⟨alignment, other, aligned, backwards, same⟩ := both alignable
        rw [aligned, backwards]
        exact congrArg some same.symm
      · rw [toOption_eq_none_of_not_alignable alignable,
          toOption_eq_none_of_not_alignable (mt Alignable.symm alignable)]
    · intro alignable
      obtain ⟨alignment, -, aligned, -⟩ := both alignable
      exact Outcome.isOk_iff.mpr ⟨alignment, aligned⟩

/-- A series with an infinite sample, and trajectories of two channels of which one is only seen
through its cells, inside a band of one. -/
theorem distance_regardless_of_order_binary64 :
    let options : Option (Options Float) := some ⟨1, 0.5, false, 2, 1⟩
    let a : Array Float := #[0, 1, 1]
    let b : Array Float := #[0, Scalar.inf]
    let left : Operand Float := .stored ⟨2, 2, .whole ⟨#v[0, 1, 2, -0]⟩⟩
    let right : Operand Float := .view ⟨2, 1, fun i _ => .ok (if i = 0 then 1 else 0.5)⟩
    (series a b options).map Alignment.distance =
        (series b a options).map Alignment.distance ∧
      (trajectories left right options).toOption.map Alignment.distance =
        (trajectories right left options).toOption.map Alignment.distance := by
  intro options a b left right
  have numbers : ∀ x ∈ a, ∀ y ∈ b, Scalar.isNaN (Scalar.abs (x - y)) = false := by
    with_unfolding_all decide
  have leftRead : columns left = .ok #[[0, 2], [1, -0]] := by rfl
  have rightRead : columns right = .ok #[[1, 0.5]] := by with_unfolding_all rfl
  have norm : Distance.PowerFree (options.getD .standard).norm :=
    Or.inr (Or.inl (by with_unfolding_all decide))
  obtain ⟨ofSeries, ofTrajectories⟩ := distance_regardless_of_order options
  refine ⟨(ofSeries a b numbers).1, (ofTrajectories left right (Or.inl norm) ?_).1⟩
  intro samples others samplesRead othersRead
  obtain rfl := Except.ok.inj (leftRead.symm.trans samplesRead)
  obtain rfl := Except.ok.inj (rightRead.symm.trans othersRead)
  with_unfolding_all decide

end EchoState.Warping
