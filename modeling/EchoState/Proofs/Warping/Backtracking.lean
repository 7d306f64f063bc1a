import EchoState.Proofs.Warping.Acceptance
import EchoState.Proofs.Warping.Diagonal

/-!
# Walking back through the table

The walk back from the last cell of the table turns, at each cell, to the least of the three amounts
that the cell was computed from; on a tie it prefers the diagonal and then the cell above. An amount
that a finite cell was computed from is finite, and every border cell but the corner is infinite, so
over costs from zero up a walk that begins at a finite cell never steps onto a border. It ends at
the first pair with the path that the value of the last cell adds up along. Over other costs it may
come to a border, and then it leaves the buffer of the table.
-/

namespace EchoState.Warping

/-! ## Lengths and costs of paths -/

namespace Path

theorem longer_le_length_cells {i j : Nat} (path : Path i j) :
    max (i + 1) (j + 1) ≤ path.cells.length := by
  induction path with
  | start => exact Nat.le_refl 1
  | diagonal before ih =>
      rw [cells, List.length_append, List.length_singleton]
      omega
  | down before ih =>
      rw [cells, List.length_append, List.length_singleton]
      omega
  | across before ih =>
      rw [cells, List.length_append, List.length_singleton]
      omega

theorem length_cells_le {i j : Nat} (path : Path i j) : path.cells.length ≤ i + j + 1 := by
  induction path with
  | start => exact Nat.le_refl 1
  | diagonal before ih =>
      rw [cells, List.length_append, List.length_singleton]
      omega
  | down before ih =>
      rw [cells, List.length_append, List.length_singleton]
      omega
  | across before ih =>
      rw [cells, List.length_append, List.length_singleton]
      omega

/-- The cost of a path is the negative zero only if the first pair costs that. -/
theorem cost_ne_neg_zero {α : Type} [Scalar α] [SignedZeroScalar α] {n m : Nat}
    {grid : Fin (n + 1) → Fin (m + 1) → α} (first : grid 0 0 ≠ -0) (penalty : α) {i j : Nat}
    (path : Path i j) (iLt : i < n + 1) (jLt : j < m + 1) :
    path.cost grid penalty iLt jLt ≠ -0 := by
  induction path with
  | start => exact first
  | diagonal before ih => exact fun sum => ih _ _ (SignedZeroScalar.neg_zeros_of_add sum).2
  | down before ih =>
      intro sum
      have penalized := (SignedZeroScalar.neg_zeros_of_add sum).2
      exact ih _ _ (SignedZeroScalar.neg_zeros_of_add penalized).1
  | across before ih =>
      intro sum
      have penalized := (SignedZeroScalar.neg_zeros_of_add sum).2
      exact ih _ _ (SignedZeroScalar.neg_zeros_of_add penalized).1

end Path

/-! ## The walk -/

namespace Table

section Walk

variable {α : Type} [Scalar α] {n m : Nat} {penalty : α} {table : Grid α (n + 1) (m + 1)}

omit [Scalar α] in
/-- Inside the table the buffer holds its cells. -/
theorem at?_natCast {i j : Nat} (iLe : i ≤ n) (jLe : j ≤ m) :
    at? table i j =
      some (table.get ⟨i, Nat.lt_succ_of_le iLe⟩ ⟨j, Nat.lt_succ_of_le jLe⟩) := by
  have place : (i : Int) * (m + 1) + j = ((i * (m + 1) + j : Nat) : Int) := by simp
  have inside : i * (m + 1) + j < (n + 1) * (m + 1) :=
    Grid.offset_lt ⟨i, Nat.lt_succ_of_le iLe⟩ ⟨j, Nat.lt_succ_of_le jLe⟩
  unfold at?
  rw [place, if_neg (Int.not_lt.mpr (Int.natCast_nonneg _)), Int.toNat_natCast,
    Vector.getElem?_eq_getElem inside]
  rfl

variable (path : List (Nat × Nat))

theorem walkBack_first : walkBack penalty table 1 1 path = some ((0, 0) :: path) := by
  rw [walkBack, if_pos ⟨rfl, rfl⟩]
  rfl

theorem walkBack_later {i j : Int} (later : (i, j) ≠ (1, 1)) :
    walkBack penalty table i j path = (turn? penalty table i j).bind fun next =>
      walkBack penalty table next.1 next.2 (((i - 1).toNat, (j - 1).toNat) :: path) := by
  have notFirst : ¬(i = 1 ∧ j = 1) := fun first => later (Prod.ext first.1 first.2)
  rw [walkBack, if_neg notFirst]
  split
  · rename_i lost
    rw [lost]
    rfl
  · rename_i turned
    dsimp only
    rw [turned]
    rfl

variable (penalty table) in
/-- Before that it turns to one of the three cells that the present one was computed from. -/
theorem walkBack_turn {i j : Nat} (iLt : i < n) (jLt : j < m) (later : (i, j) ≠ (0, 0)) :
    walkBack penalty table (i + 1 : Nat) (j + 1 : Nat) path =
      let diagonal := table.get ⟨i, Nat.lt_succ_of_lt iLt⟩ ⟨j, Nat.lt_succ_of_lt jLt⟩
      let above := table.get ⟨i, Nat.lt_succ_of_lt iLt⟩ ⟨j + 1, Nat.succ_lt_succ jLt⟩ + penalty
      let left := table.get ⟨i + 1, Nat.succ_lt_succ iLt⟩ ⟨j, Nat.lt_succ_of_lt jLt⟩ + penalty
      if Scalar.le diagonal above && Scalar.le diagonal left then
        walkBack penalty table i j ((i, j) :: path)
      else if Scalar.le above left then
        walkBack penalty table i (j + 1 : Nat) ((i, j) :: path)
      else walkBack penalty table (i + 1 : Nat) j ((i, j) :: path) := by
  have notFirst : (((i + 1 : Nat) : Int), ((j + 1 : Nat) : Int)) ≠ (1, 1) := by
    intro first
    obtain ⟨iFirst, jFirst⟩ := Prod.mk.inj first
    exact later (Prod.ext (by omega) (by omega))
  have up : ((i + 1 : Nat) : Int) - 1 = i := by omega
  have back : ((j + 1 : Nat) : Int) - 1 = j := by omega
  rw [walkBack_later path notFirst, turn?, up, back,
    at?_natCast (Nat.le_of_lt iLt) (Nat.le_of_lt jLt), at?_natCast (Nat.le_of_lt iLt) jLt,
    at?_natCast iLt (Nat.le_of_lt jLt)]
  simp only [Option.bind_eq_bind, Option.bind_some, Int.toNat_natCast]
  split
  · rfl
  · split <;> rfl

/-- A walk that has come to the border on the left never comes back: it goes on to the left, through
the ends of the rows above, until it leaves the buffer. -/
theorem walkBack_of_left_border {i j : Int} (border : j ≤ 0) (path : List (Nat × Nat)) :
    walkBack penalty table i j path = none := by
  rw [walkBack_later path (fun first => by cases first; omega)]
  cases turned : turn? penalty table i j with
  | none => rfl
  | some next =>
      have earlier := earlier_of_turn turned
      exact walkBack_of_left_border (Int.le_trans earlier.2.2 border) _
termination_by (i * (m + 1) + j).toNat

theorem walkBack_of_upper_border {j : Nat} (jLe : j ≤ m) :
    walkBack penalty table 0 j path = none := by
  have outside : at? table ((0 : Int) - 1) (j - 1) = none := if_pos (by omega)
  rw [walkBack_later path (fun first => by cases first), turn?, outside]
  rfl

end Walk

end Table

namespace Chargeable

variable {α : Type} [Scalar α] [AdditiveScalar α] {n m : Nat}
variable {grid : Fin n → Fin m → α} {options : Options α}

open Scalar OrderedScalar AdditiveScalar

/-- The walk back from a cell of the finished table, with the given pairs behind it. -/
def walkFrom (grid : Fin n → Fin m → α) (options : Options α) (i j : Nat)
    (rest : List (Nat × Nat)) : Option (List (Nat × Nat)) :=
  Table.walkBack options.slopePenalty (Table.fill options.rule grid) i j rest

/-- A walk turns from a cell to another one whose value, penalised or not, is the given amount: the
amount is below infinity and is what the present value adds to its own cost. -/
structure Turns (grid : Fin n → Fin m → α) (options : Options α) {i j : Nat} (iLt : i < n)
    (jLt : j < m) (rest : List (Nat × Nat)) (k l : Nat) (amount : α) : Prop where
  amount_lt_inf : lt amount inf
  value_eq : eq (value options.rule grid (i + 1) (j + 1) iLt jLt)
    (grid ⟨i, iLt⟩ ⟨j, jLt⟩ + amount)
  walk_eq : walkFrom grid options (i + 1) (j + 1) rest = walkFrom grid options k l ((i, j) :: rest)

section Cell

variable (charges : Chargeable grid options) (usable : -1 ≤ options.window) {i j : Nat}
  {iLt : i < n} {jLt : j < m}
  (below : lt (value options.rule grid (i + 1) (j + 1) iLt jLt) inf)

include charges usable below

/-- A cell below infinity lies in the band and was computed from an amount below infinity. -/
theorem value_of_lt_inf :
    InBand options.window i j ∧ ∃ amount,
      lt amount inf ∧
      value options.rule grid (i + 1) (j + 1) iLt jLt = grid ⟨i, iLt⟩ ⟨j, jLt⟩ + amount ∧
      eq amount
        (let diagonal := value options.rule grid i j (Nat.le_of_lt iLt) (Nat.le_of_lt jLt)
        let above :=
          value options.rule grid i (j + 1) (Nat.le_of_lt iLt) jLt + options.slopePenalty
        let left :=
          value options.rule grid (i + 1) j iLt (Nat.le_of_lt jLt) + options.slopePenalty
        if le diagonal above && le diagonal left then diagonal
        else if le above left then above else left) := by
  have inBand : InBand options.window i j := by
    rcases value_cases grid options usable iLt jLt with outside | ⟨inBand, _⟩
    · rw [outside] at below
      exact absurd below not_inf_lt_inf
    · exact inBand
  have diagonalNonneg := charges.value_nonneg i j (Nat.le_of_lt iLt) (Nat.le_of_lt jLt)
  have aboveNonneg := add_nonneg
    (charges.value_nonneg i (j + 1) (Nat.le_of_lt iLt) jLt) charges.penalty_nonneg
  have leftNonneg := add_nonneg
    (charges.value_nonneg (i + 1) j iLt (Nat.le_of_lt jLt)) charges.penalty_nonneg
  rw [value_inner, cell_of_inBand grid options usable ⟨i, iLt⟩ ⟨j, jLt⟩ inBand] at below ⊢
  have finite := lt_inf_of_add (charges.grid_nonneg _ _)
    (le_least diagonalNonneg aboveNonneg leftNonneg) below
  exact ⟨inBand, _, finite.2, rfl, least_eq_choice (number_of_nonneg diagonalNonneg)
    (number_of_nonneg aboveNonneg) (number_of_nonneg leftNonneg)⟩

/-- A walk at a cell below infinity, other than the first one, turns to a cell below infinity that
the present value was computed from. -/
theorem walk_turns (later : (i, j) ≠ (0, 0)) (rest : List (Nat × Nat)) :
    Turns grid options iLt jLt rest i j
        (value options.rule grid i j (Nat.le_of_lt iLt) (Nat.le_of_lt jLt)) ∨
      Turns grid options iLt jLt rest i (j + 1)
        (value options.rule grid i (j + 1) (Nat.le_of_lt iLt) jLt + options.slopePenalty) ∨
      Turns grid options iLt jLt rest (i + 1) j
        (value options.rule grid (i + 1) j iLt (Nat.le_of_lt jLt) + options.slopePenalty) := by
  obtain ⟨_, amount, finite, sum, choice⟩ := charges.value_of_lt_inf usable below
  have diagonalNonneg := charges.value_nonneg i j (Nat.le_of_lt iLt) (Nat.le_of_lt jLt)
  have aboveNonneg := add_nonneg
    (charges.value_nonneg i (j + 1) (Nat.le_of_lt iLt) jLt) charges.penalty_nonneg
  have leftNonneg := add_nonneg
    (charges.value_nonneg (i + 1) j iLt (Nat.le_of_lt jLt)) charges.penalty_nonneg
  have turned :=
    Table.walkBack_turn options.slopePenalty (Table.fill options.rule grid) rest iLt jLt later
  simp only [Table.get_fill] at turned
  have turns {k l : Nat} {chosen : α} (nonneg : le 0 chosen) (same : eq amount chosen)
      (walk : walkFrom grid options (i + 1) (j + 1) rest =
        walkFrom grid options k l ((i, j) :: rest)) :
      Turns grid options iLt jLt rest k l chosen := by
    have chosenLe := (eq_iff.mp same).2
    refine ⟨lt_of_le_of_lt chosenLe finite, ?_, walk⟩
    rw [sum]
    exact add_eq_add_left (charges.grid_nonneg _ _) (le_trans nonneg chosenLe) nonneg same
  dsimp only at choice
  split at choice
  · rename_i first
    rw [if_pos first] at turned
    exact Or.inl (turns diagonalNonneg choice turned)
  · rename_i notFirst
    rw [if_neg notFirst] at turned
    split at choice
    · rename_i second
      rw [if_pos second] at turned
      exact Or.inr (Or.inl (turns aboveNonneg choice turned))
    · rename_i notSecond
      rw [if_neg notSecond] at turned
      exact Or.inr (Or.inr (turns leftNonneg choice turned))

end Cell

/-- The walk back from a cell returns this path, which stays inside the band and which the value of
the cell adds up along. -/
structure Follows (grid : Fin n → Fin m → α) (options : Options α) {i j : Nat} (iLt : i < n)
    (jLt : j < m) (rest : List (Nat × Nat)) (path : Path i j) : Prop where
  within : path.Within options.window
  value_eq : eq (value options.rule grid (i + 1) (j + 1) iLt jLt)
    (path.cost grid options.slopePenalty iLt jLt)
  walk_eq : walkFrom grid options (i + 1) (j + 1) rest = some (path.cells ++ rest)

section Turn

variable {i j : Nat} {rest : List (Nat × Nat)} (charges : Chargeable grid options)

include charges

theorem follows_start {iLt : 0 < n} {jLt : 0 < m} (usable : -1 ≤ options.window)
    (below : lt (value options.rule grid 1 1 iLt jLt) inf) :
    Follows grid options iLt jLt rest .start := by
  have gridNonneg := charges.grid_nonneg ⟨0, iLt⟩ ⟨0, jLt⟩
  have endless : inf + options.slopePenalty = inf :=
    AdditiveScalar.inf_add charges.penalty_nonneg
  obtain ⟨inBand, amount, _, sum, choice⟩ := charges.value_of_lt_inf usable below
  simp only [value_corner, value_top, value_left, endless, zero_le_inf, Bool.and_self,
    if_true] at choice
  have nothing := add_eq_add_left gridNonneg (eq_iff.mp choice).2 zero_le_zero choice
  refine ⟨Path.within_start.mpr inBand, ?_, Table.walkBack_first _⟩
  rw [sum]
  exact eq_trans nothing (AdditiveScalar.add_zero gridNonneg)

theorem follows_diagonal {iLt : i + 1 < n} {jLt : j + 1 < m} {path : Path i j}
    (inBand : InBand options.window (i + 1) (j + 1))
    (turn : Turns grid options iLt jLt rest (i + 1) (j + 1)
      (value options.rule grid (i + 1) (j + 1) (Nat.le_of_lt iLt) (Nat.le_of_lt jLt)))
    (before : Follows grid options (Nat.lt_of_succ_lt iLt) (Nat.lt_of_succ_lt jLt)
      ((i + 1, j + 1) :: rest) path) :
    Follows grid options iLt jLt rest path.diagonal := by
  refine ⟨Path.within_diagonal.mpr ⟨before.within, inBand⟩, ?_, ?_⟩
  · exact eq_trans turn.value_eq (add_eq_add_left (charges.grid_nonneg _ _)
      (charges.value_nonneg _ _ _ _) (charges.cost_nonneg path _ _) before.value_eq)
  · rw [turn.walk_eq, before.walk_eq, Path.cells, List.append_assoc]
    rfl

theorem follows_down {iLt : i + 1 < n} {jLt : j < m} {path : Path i j}
    (inBand : InBand options.window (i + 1) j)
    (turn : Turns grid options iLt jLt rest (i + 1) (j + 1)
      (value options.rule grid (i + 1) (j + 1) (Nat.le_of_lt iLt) jLt + options.slopePenalty))
    (before : Follows grid options (Nat.lt_of_succ_lt iLt) jLt ((i + 1, j) :: rest) path) :
    Follows grid options iLt jLt rest path.down := by
  refine ⟨Path.within_down.mpr ⟨before.within, inBand⟩, ?_, ?_⟩
  · exact eq_trans turn.value_eq (charges.add_penalized_eq (charges.grid_nonneg _ _)
      (charges.value_nonneg _ _ _ _) (charges.cost_nonneg path _ _) before.value_eq)
  · rw [turn.walk_eq, before.walk_eq, Path.cells, List.append_assoc]
    rfl

theorem follows_across {iLt : i < n} {jLt : j + 1 < m} {path : Path i j}
    (inBand : InBand options.window i (j + 1))
    (turn : Turns grid options iLt jLt rest (i + 1) (j + 1)
      (value options.rule grid (i + 1) (j + 1) iLt (Nat.le_of_lt jLt) + options.slopePenalty))
    (before : Follows grid options iLt (Nat.lt_of_succ_lt jLt) ((i, j + 1) :: rest) path) :
    Follows grid options iLt jLt rest path.across := by
  refine ⟨Path.within_across.mpr ⟨before.within, inBand⟩, ?_, ?_⟩
  · exact eq_trans turn.value_eq (charges.add_penalized_eq (charges.grid_nonneg _ _)
      (charges.value_nonneg _ _ _ _) (charges.cost_nonneg path _ _) before.value_eq)
  · rw [turn.walk_eq, before.walk_eq, Path.cells, List.append_assoc]
    rfl

/-- A cell that a turn adds the penalty to is below infinity itself. -/
theorem lt_inf_of_penalized {iLe : i ≤ n} {jLe : j ≤ m}
    (below : lt (value options.rule grid i j iLe jLe + options.slopePenalty) inf) :
    lt (value options.rule grid i j iLe jLe) inf :=
  (lt_inf_of_add (charges.value_nonneg _ _ _ _) charges.penalty_nonneg below).1

end Turn

/-- The walk from a cell below infinity never meets a border: it follows a path. -/
theorem exists_follows (charges : Chargeable grid options) (usable : -1 ≤ options.window)
    (i j : Nat) (iLt : i < n) (jLt : j < m)
    (below : lt (value options.rule grid (i + 1) (j + 1) iLt jLt) inf)
    (rest : List (Nat × Nat)) :
    ∃ path : Path i j, Follows grid options iLt jLt rest path := by
  by_cases first : (i, j) = (0, 0)
  · obtain ⟨rfl, rfl⟩ := Prod.mk.inj first
    exact ⟨_, charges.follows_start usable below⟩
  have inBand := (charges.value_of_lt_inf usable below).1
  -- a turn to a border cell is refuted by the value of that cell, which is infinite
  rcases charges.walk_turns usable below first rest with diagonal | above | left
  · cases i with
    | zero =>
        cases j with
        | zero => exact absurd rfl first
        | succ j =>
            rw [value_top] at diagonal
            exact absurd diagonal.amount_lt_inf not_inf_lt_inf
    | succ i =>
        cases j with
        | zero =>
            rw [value_left] at diagonal
            exact absurd diagonal.amount_lt_inf not_inf_lt_inf
        | succ j =>
            obtain ⟨path, before⟩ := charges.exists_follows usable i j (Nat.lt_of_succ_lt iLt)
              (Nat.lt_of_succ_lt jLt) diagonal.amount_lt_inf ((i + 1, j + 1) :: rest)
            exact ⟨path.diagonal, charges.follows_diagonal inBand diagonal before⟩
  · have finite := charges.lt_inf_of_penalized above.amount_lt_inf
    cases i with
    | zero =>
        rw [value_top] at finite
        exact absurd finite not_inf_lt_inf
    | succ i =>
        obtain ⟨path, before⟩ := charges.exists_follows usable i j (Nat.lt_of_succ_lt iLt) jLt
          finite ((i + 1, j) :: rest)
        exact ⟨path.down, charges.follows_down inBand above before⟩
  · have finite := charges.lt_inf_of_penalized left.amount_lt_inf
    cases j with
    | zero =>
        rw [value_left] at finite
        exact absurd finite not_inf_lt_inf
    | succ j =>
        obtain ⟨path, before⟩ := charges.exists_follows usable i j iLt (Nat.lt_of_succ_lt jLt)
          finite ((i, j + 1) :: rest)
        exact ⟨path.across, charges.follows_across inBand left before⟩
termination_by i + j

end Chargeable

/-! ## Accepted options -/

namespace Options

variable {α : Type} [Scalar α]

/-- Options that ask for a path along the whole table are accepted as they are. -/
theorem plan_of_wanted [AdditiveScalar α] {options : Options α} (usable : -1 ≤ options.window)
    (penaltyFinite : Scalar.finite options.slopePenalty = true)
    (penaltyNonneg : Scalar.le 0 options.slopePenalty = true) (whole : options.memoryMode = 0)
    (wanted : options.wantsPath = true) :
    options.plan = .ok ⟨options.rule, .table, true, options.norm⟩ := by
  have accepted : options.Usable :=
    ⟨usable, penaltyFinite, penaltyNonneg, ⟨.table, whole⟩, fun _ => whole⟩
  exact plan_eq_ok_iff.mpr ⟨accepted, .table, whole, by rw [wanted]⟩

end Options

/-! ## Paths of alignments -/

/-- An alignment along the whole table that was asked for its path walks back through the table,
unless its distance is infinite. -/
theorem align_of_wanted {α : Type} [Scalar α] {n m : Nat} (grid : Fin n → Fin m → α)
    (options : Options α) :
    align grid ⟨options.rule, .table, true, options.norm⟩ =
      let distance := value options.rule grid n m (Nat.le_refl n) (Nat.le_refl m)
      if Scalar.eq distance Scalar.inf then ⟨distance, none⟩
      else ⟨distance, Chargeable.walkFrom grid options n m []⟩ := by
  unfold align
  dsimp only
  rw [Table.distance_fill]
  cases Scalar.eq (value options.rule grid n m (Nat.le_refl n) (Nat.le_refl m)) Scalar.inf <;> rfl

/-- Over costs from zero up no walk back is lost. -/
theorem Chargeable.not_lost {α : Type} [Scalar α] [AdditiveScalar α] {n m : Nat}
    {grid : Fin n → Fin m → α} {options : Options α} (charges : Chargeable grid options)
    (usable : -1 ≤ options.window) (nSome : n ≠ 0) (mSome : m ≠ 0) (storage : Storage) :
    Plan.lost ⟨options.rule, storage, options.wantsPath, options.norm⟩
      (align grid ⟨options.rule, storage, options.wantsPath, options.norm⟩) = false := by
  cases storage with
  | twoRows | oneRow => rfl
  | table =>
      cases options.wantsPath with
      | false => exact Plan.lost_of_unwanted rfl _
      | true =>
          obtain ⟨n, rfl⟩ := Nat.exists_eq_succ_of_ne_zero nSome
          obtain ⟨m, rfl⟩ := Nat.exists_eq_succ_of_ne_zero mSome
          rw [align_of_wanted]
          unfold Plan.lost
          dsimp only
          split
          · rename_i infinite
            rw [infinite]
            rfl
          · rename_i finite
            have nonneg := charges.value_nonneg (n + 1) (m + 1) (Nat.le_refl _) (Nat.le_refl _)
            have below := Scalar.lt_inf_of_ne nonneg finite
            obtain ⟨path, follows⟩ := charges.exists_follows usable n m (Nat.lt_succ_self n)
              (Nat.lt_succ_self m) below []
            rw [follows.walk_eq]
            exact Bool.and_false _

/-- Series with samples are aligned under usable options when their gaps are from zero up. -/
theorem series_of_nonneg {α : Type} [Scalar α] [AdditiveScalar α] {a b : Array α}
    (aSome : a ≠ #[]) (bSome : b ≠ #[]) (gapsNonneg : ∀ i j, Scalar.le 0 (gapGrid a b i j))
    {options : Option (Options α)} (usable : (options.getD .standard).Usable) {plan : Plan α}
    (planned : Options.resolve options = .ok plan) :
    series a b options = .ok (align (gapGrid a b) plan) := by
  obtain ⟨-, storage, -, rfl⟩ := Options.plan_eq_ok_iff.mp planned
  have charges := usable.chargeable gapsNonneg
  exact series_eq_ok_iff.mpr ⟨aSome, bSome, _, planned,
    charges.not_lost usable.window_usable (mt Array.eq_empty_of_size_eq_zero aSome)
      (mt Array.eq_empty_of_size_eq_zero bSome) storage, rfl⟩

section Paths

variable {α : Type} [Scalar α] [AdditiveScalar α] [DiscreteScalar α] {n m : Nat}

open Scalar OrderedScalar

/-- Options with a usable window and penalty that ask for the path along the whole table are
accepted. The alignment returns a path whenever its distance is below infinity: from the first pair
of samples to the last, inside the band, and of a cost that is the distance, to the last bit unless
the first pair costs the negative zero; no path inside the band costs less. Otherwise the distance
is infinite and there is no path. -/
theorem align_path_isLeast (grid : Fin (n + 1) → Fin (m + 1) → α)
    (gridNonneg : ∀ i j, le 0 (grid i j)) {options : Options α} (usable : -1 ≤ options.window)
    (penaltyFinite : finite options.slopePenalty) (penaltyNonneg : le 0 options.slopePenalty)
    (whole : options.memoryMode = 0) (wanted : options.wantsPath = true) :
    ∃ plan, options.plan = .ok plan ∧
      let alignment := align grid plan
      let pathCost (path : Path n m) :=
        path.cost grid options.slopePenalty (Nat.lt_succ_self n) (Nat.lt_succ_self m)
      (lt alignment.distance inf →
        ∃ path : Path n m, alignment.path = some path.cells ∧
          path.Within options.window ∧
          max (n + 1) (m + 1) ≤ path.cells.length ∧ path.cells.length ≤ n + m + 1 ∧
          eq alignment.distance (pathCost path) ∧
          (grid 0 0 ≠ -0 → alignment.distance = pathCost path) ∧
          ∀ other : Path n m, other.Within options.window → le (pathCost path) (pathCost other)) ∧
        (¬lt alignment.distance inf → alignment.distance = inf ∧ alignment.path = none) := by
  refine ⟨_, Options.plan_of_wanted usable penaltyFinite penaltyNonneg whole wanted, ?_⟩
  have charges : Chargeable grid options := ⟨gridNonneg, penaltyNonneg⟩
  have nonneg := charges.value_nonneg (n + 1) (m + 1) (Nat.le_refl _) (Nat.le_refl _)
  have notNegative := value_ne_neg_zero options.rule grid (n + 1) (m + 1) (Nat.le_refl _)
    (Nat.le_refl _)
  rw [align_of_wanted]
  dsimp only
  by_cases infinite :
      eq (value options.rule grid (n + 1) (m + 1) (Nat.le_refl _) (Nat.le_refl _)) inf = true
  · rw [if_pos infinite]
    refine ⟨fun below => ?_, fun _ => ⟨?_, rfl⟩⟩
    · exact absurd (eq_iff.mp infinite).2 (lt_iff.mp below).2
    · exact DiscreteScalar.eq_of_eq infinite notNegative inf_ne_neg_zero
  · rw [if_neg infinite]
    have below := lt_inf_of_ne nonneg infinite
    refine ⟨fun _ => ?_, fun notBelow => absurd below notBelow⟩
    obtain ⟨path, within, same, walked⟩ := charges.exists_follows usable n m
      (Nat.lt_succ_self n) (Nat.lt_succ_self m) below []
    rw [List.append_nil] at walked
    refine ⟨path, walked, within, path.longer_le_length_cells, path.length_cells_le, same, ?_, ?_⟩
    · intro first
      exact DiscreteScalar.eq_of_eq same notNegative (path.cost_ne_neg_zero first _ _ _)
    · intro other otherWithin
      exact le_trans (eq_iff.mp same).2
        (charges.value_le_cost usable other _ _ otherWithin)

end Paths

/-- Three samples against two inside a band of one, in binary64: the last step is not diagonal. -/
theorem align_path_isLeast_binary64 :
    let grid : Fin 3 → Fin 2 → Float := fun i j =>
      Scalar.abs (#v[0, 1, 1].get i - #v[0, 1].get j)
    let options : Options Float := ⟨1, 0.5, true, 0, 2⟩
    let plan : Plan Float := ⟨options.rule, .table, true, 2⟩
    options.plan = .ok plan ∧ Scalar.lt (align grid plan).distance Scalar.inf = true ∧
      ∃ path : Path 2 1, (align grid plan).path = some path.cells ∧ path.Within 1 ∧
        (align grid plan).distance = path.cost grid 0.5 (by decide) (by decide) := by
  intro grid options plan
  have gridNonneg : ∀ i j, Scalar.le 0 (grid i j) := by with_unfolding_all decide
  have penaltyFinite : Scalar.finite options.slopePenalty := by with_unfolding_all decide
  have penaltyNonneg : Scalar.le 0 options.slopePenalty := by with_unfolding_all decide
  have accepted : options.plan = .ok plan :=
    Options.plan_of_wanted (by decide) penaltyFinite penaltyNonneg rfl rfl
  have below : Scalar.lt (align grid plan).distance Scalar.inf = true := by decide +kernel
  have first : grid 0 0 ≠ -0 := fun negative =>
    absurd (congrArg Float.toBits negative) (by with_unfolding_all decide)
  obtain ⟨made, planned, finds, _⟩ :=
    align_path_isLeast grid gridNonneg (by decide) penaltyFinite penaltyNonneg rfl rfl
  obtain rfl : plan = made := Except.ok.inj (accepted.symm.trans planned)
  obtain ⟨path, found, within, _, _, _, same, _⟩ := finds below
  exact ⟨accepted, below, path, found, within, same first⟩

end EchoState.Warping
