import EchoState.Proofs.Control
import EchoState.Warping.Alignment

/-!
# The recurrence behind every storage

`value` is the alignment table as a function of its two indices, with no storage at all: zero in
the corner, infinite along the borders, and `Rule.cell` of the three neighbours elsewhere. The
whole table, the two exchanged rows and the single overwritten row all compute it, so an alignment
has the same distance whichever of them is chosen. No law of the scalar is used.
-/

namespace EchoState.Warping

variable {α : Type} [Scalar α] {n m : Nat}

/-- The cell of the alignment table at a row and a column, borders included. -/
def value (rule : Rule α) (cost : Fin n → Fin m → α) :
    (i j : Nat) → i ≤ n → j ≤ m → α
  | 0, 0, _, _ => 0
  | 0, _ + 1, _, _ => Scalar.inf
  | _ + 1, 0, _, _ => Scalar.inf
  | i + 1, j + 1, iLe, jLe =>
      rule.cell cost ⟨i, iLe⟩ ⟨j, jLe⟩
        (value rule cost i j (Nat.le_of_succ_le iLe) (Nat.le_of_succ_le jLe))
        (value rule cost i (j + 1) (Nat.le_of_succ_le iLe) jLe)
        (value rule cost (i + 1) j iLe (Nat.le_of_succ_le jLe))
termination_by i j => i + j

section Borders

variable (rule : Rule α) (cost : Fin n → Fin m → α)

@[simp]
theorem value_corner (iLe : 0 ≤ n) (jLe : 0 ≤ m) : value rule cost 0 0 iLe jLe = 0 := by
  rw [value]

@[simp]
theorem value_top (j : Nat) (iLe : 0 ≤ n) (jLe : j + 1 ≤ m) :
    value rule cost 0 (j + 1) iLe jLe = Scalar.inf := by
  rw [value]

@[simp]
theorem value_left (i : Nat) (iLe : i + 1 ≤ n) (jLe : 0 ≤ m) :
    value rule cost (i + 1) 0 iLe jLe = Scalar.inf := by
  rw [value]

theorem value_inner (i j : Nat) (iLe : i + 1 ≤ n) (jLe : j + 1 ≤ m) :
    value rule cost (i + 1) (j + 1) iLe jLe =
      rule.cell cost ⟨i, iLe⟩ ⟨j, jLe⟩
        (value rule cost i j (Nat.le_of_succ_le iLe) (Nat.le_of_succ_le jLe))
        (value rule cost i (j + 1) (Nat.le_of_succ_le iLe) jLe)
        (value rule cost (i + 1) j iLe (Nat.le_of_succ_le jLe)) := by
  rw [value]

end Borders

namespace Table

/-- The table agrees with the recurrence in its first `i` rows below the border row, in the next
row up to column `j`, and in the border column. -/
def KnownUpTo (rule : Rule α) (cost : Fin n → Fin m → α) (i j : Nat)
    (table : Grid α (n + 1) (m + 1)) : Prop :=
  ∀ (a : Fin (n + 1)) (b : Fin (m + 1)),
    a.val ≤ i ∨ (a.val = i + 1 ∧ b.val ≤ j) ∨ b.val = 0 →
      table.get a b = value rule cost a b a.is_le b.is_le

variable (rule : Rule α) (cost : Fin n → Fin m → α)

theorem border_knownUpTo : KnownUpTo rule cost 0 0 (border : Grid α (n + 1) (m + 1)) := by
  intro a b known
  obtain ⟨a, aInside⟩ := a
  obtain ⟨b, bInside⟩ := b
  rw [border, Grid.get_ofFn]
  cases a with
  | zero =>
      cases b with
      | zero => simp
      | succ b => simp
  | succ a =>
      cases b with
      | zero => simp
      | succ b => simp at known

/-- Computing one more cell of a row makes that cell known. -/
theorem knownUpTo_set {i j : Nat} (iInside : i < n) (jInside : j < m)
    {table : Grid α (n + 1) (m + 1)} (known : KnownUpTo rule cost i j table) :
    KnownUpTo rule cost i (j + 1)
      (table.set (Fin.succ ⟨i, iInside⟩) (Fin.succ ⟨j, jInside⟩)
        (rule.cell cost ⟨i, iInside⟩ ⟨j, jInside⟩
          (table.get (Fin.castSucc ⟨i, iInside⟩) (Fin.castSucc ⟨j, jInside⟩))
          (table.get (Fin.castSucc ⟨i, iInside⟩) (Fin.succ ⟨j, jInside⟩))
          (table.get (Fin.succ ⟨i, iInside⟩) (Fin.castSucc ⟨j, jInside⟩)))) := by
  intro a b place
  rw [Grid.get_set]
  by_cases here : Fin.succ ⟨i, iInside⟩ = a ∧ Fin.succ ⟨j, jInside⟩ = b
  · obtain ⟨rfl, rfl⟩ := here
    rw [if_pos ⟨rfl, rfl⟩]
    have diagonal := known (Fin.castSucc ⟨i, iInside⟩) (Fin.castSucc ⟨j, jInside⟩)
      (Or.inl (Nat.le_refl i))
    have above := known (Fin.castSucc ⟨i, iInside⟩) (Fin.succ ⟨j, jInside⟩)
      (Or.inl (Nat.le_refl i))
    have left := known (Fin.succ ⟨i, iInside⟩) (Fin.castSucc ⟨j, jInside⟩)
      (Or.inr (Or.inl ⟨rfl, Nat.le_refl j⟩))
    rw [diagonal, above, left]
    exact (value_inner rule cost i j iInside jInside).symm
  · rw [if_neg here]
    apply known
    have elsewhere : ¬(i + 1 = a.val ∧ j + 1 = b.val) := fun same =>
      here ⟨Fin.ext same.1, Fin.ext same.2⟩
    omega

theorem fillRow_knownUpTo {i : Nat} (iInside : i < n) {table : Grid α (n + 1) (m + 1)}
    (known : KnownUpTo rule cost i 0 table) :
    KnownUpTo rule cost (i + 1) 0 (fillRow rule cost ⟨i, iInside⟩ table) := by
  have filled : KnownUpTo rule cost i m (fillRow rule cost ⟨i, iInside⟩ table) :=
    fold_invariant (KnownUpTo rule cost i) _ _ known
      fun _ jInside _ before => knownUpTo_set rule cost iInside jInside before
  intro a b place
  apply filled
  have bLe := b.is_le
  omega

theorem get_fill (a : Fin (n + 1)) (b : Fin (m + 1)) :
    (fill rule cost).get a b = value rule cost a b a.is_le b.is_le := by
  have known : KnownUpTo rule cost n 0 (fill rule cost) :=
    fold_invariant (fun i => KnownUpTo rule cost i 0) _ _ (border_knownUpTo rule cost)
      fun _ iInside _ before => fillRow_knownUpTo rule cost iInside before
  exact known a b (Or.inl a.is_le)

theorem distance_fill :
    distance (fill rule cost) = value rule cost n m (Nat.le_refl n) (Nat.le_refl m) :=
  get_fill rule cost (Fin.last n) (Fin.last m)

end Table

/-- A buffer holds a whole row of the recurrence. -/
def RowKnown (rule : Rule α) (cost : Fin n → Fin m → α) (i : Nat) (iLe : i ≤ n)
    (row : Vector α (m + 1)) : Prop :=
  ∀ (b : Nat) (bLe : b ≤ m), row.get ⟨b, Nat.lt_succ_of_le bLe⟩ = value rule cost i b iLe bLe

theorem topRow_rowKnown (rule : Rule α) (cost : Fin n → Fin m → α) (iLe : 0 ≤ n) :
    RowKnown rule cost 0 iLe (topRow m) := by
  intro b bLe
  rw [vector_get_mk, topRow, Vector.getElem_ofFn]
  cases b with
  | zero => simp
  | succ b => simp [Fin.ext_iff]

namespace TwoRows

variable (rule : Rule α) (cost : Fin n → Fin m → α)

/-- A row computed into a buffer from the row above is the next row of the recurrence, whatever the
buffer held before. -/
theorem fillRow_rowKnown {i : Nat} (iInside : i < n) {above : Vector α (m + 1)}
    (buffer : Vector α (m + 1)) (known : RowKnown rule cost i (Nat.le_of_lt iInside) above) :
    RowKnown rule cost (i + 1) iInside (fillRow rule cost ⟨i, iInside⟩ above buffer) := by
  have above_eq (b : Nat) (bLe : b ≤ m) :
      above[b] = value rule cost i b (Nat.le_of_lt iInside) bLe := known b bLe
  intro b bLe
  refine fold_invariant
    (fun j (row : Vector α (m + 1)) => ∀ (b : Nat) (bLe : b ≤ m), b ≤ j →
      row[b] = value rule cost (i + 1) b iInside bLe) _ _ ?begins ?carries b bLe bLe
  case begins =>
    intro b bLe early
    obtain rfl : b = 0 := Nat.le_zero.mp early
    simp
  case carries =>
    intro j jInside row before b bLe early
    rw [Vector.getElem_set]
    by_cases here : j + 1 = b
    · subst here
      rw [if_pos rfl, above_eq j (Nat.le_of_lt jInside), above_eq (j + 1) jInside,
        before j (Nat.le_of_lt jInside) (Nat.le_refl j)]
      exact (value_inner rule cost i j iInside jInside).symm
    · rw [if_neg here]
      exact before b bLe (by omega)

theorem distance_eq_value :
    distance rule cost = value rule cost n m (Nat.le_refl n) (Nat.le_refl m) := by
  have filled := fold_invariant
    (fun i (rows : Vector α (m + 1) × Vector α (m + 1)) =>
      ∀ iLe : i ≤ n, RowKnown rule cost i iLe rows.1)
    (fun i inside (rows : Vector α (m + 1) × Vector α (m + 1)) =>
      (fillRow rule cost ⟨i, inside⟩ rows.1 rows.2, rows.1))
    (topRow m, Vector.replicate (m + 1) 0)
    (topRow_rowKnown rule cost)
    (fun i inside rows before _ =>
      fillRow_rowKnown rule cost inside rows.2 (before (Nat.le_of_lt inside)))
  exact filled (Nat.le_refl n) m (Nat.le_refl m)

end TwoRows

namespace OneRow

variable (rule : Rule α) (cost : Fin n → Fin m → α)

/-- The row in the middle of a pass: overwritten up to a column, untouched after it, and beside it
the value that stood in that column before the pass. -/
structure PartWay (i j : Nat) (iInside : i < n)
    (current : Vector α (m + 1) × α) : Prop where
  overwritten : ∀ (b : Nat) (bLe : b ≤ m), b ≤ j →
    current.1.get ⟨b, Nat.lt_succ_of_le bLe⟩ = value rule cost (i + 1) b iInside bLe
  untouched : ∀ (b : Nat) (bLe : b ≤ m), j < b →
    current.1.get ⟨b, Nat.lt_succ_of_le bLe⟩ = value rule cost i b (Nat.le_of_lt iInside) bLe
  carried : ∀ jLe : j ≤ m, current.2 = value rule cost i j (Nat.le_of_lt iInside) jLe

theorem partWay_start {i : Nat} (iInside : i < n) {row : Vector α (m + 1)}
    (known : RowKnown rule cost i (Nat.le_of_lt iInside) row) :
    PartWay rule cost i 0 iInside (row.set 0 Scalar.inf, row[0]) where
  overwritten := by
    intro b bLe early
    obtain rfl : b = 0 := Nat.le_zero.mp early
    rw [vector_get_mk, Vector.getElem_set_self, value_left]
  untouched := by
    intro b bLe late
    rw [vector_get_mk, Vector.getElem_set, if_neg (Nat.ne_of_lt late)]
    exact known b bLe
  carried := known 0

/-- One more column of a pass. -/
theorem partWay_set {i j : Nat} (iInside : i < n) (jInside : j < m)
    {current : Vector α (m + 1) × α} (before : PartWay rule cost i j iInside current) :
    PartWay rule cost i (j + 1) iInside
      (current.1.set (j + 1)
        (rule.cell cost ⟨i, iInside⟩ ⟨j, jInside⟩ current.2 current.1[j + 1] current.1[j]),
        current.1[j + 1]) where
  overwritten := by
    intro b bLe early
    rw [vector_get_mk, Vector.getElem_set]
    by_cases here : j + 1 = b
    · subst here
      have above : current.1[j + 1] = _ :=
        before.untouched (j + 1) jInside (Nat.lt_succ_self j)
      have left : current.1[j] = _ :=
        before.overwritten j (Nat.le_of_lt jInside) (Nat.le_refl j)
      rw [if_pos rfl, before.carried (Nat.le_of_lt jInside), above, left]
      exact (value_inner rule cost i j iInside jInside).symm
    · rw [if_neg here]
      exact before.overwritten b bLe (by omega)
  untouched := by
    intro b bLe late
    rw [vector_get_mk, Vector.getElem_set, if_neg (Nat.ne_of_lt late)]
    exact before.untouched b bLe (Nat.lt_of_succ_lt late)
  carried := fun jLe => before.untouched (j + 1) jLe (Nat.lt_succ_self j)

/-- Overwriting a row of the recurrence leaves its next row. -/
theorem fillRow_rowKnown {i : Nat} (iInside : i < n) {row : Vector α (m + 1)}
    (known : RowKnown rule cost i (Nat.le_of_lt iInside) row) :
    RowKnown rule cost (i + 1) iInside (fillRow rule cost ⟨i, iInside⟩ row) := by
  have filled := fold_invariant (fun j => PartWay rule cost i j iInside)
    (fun j inside (current : Vector α (m + 1) × α) =>
      (current.1.set (j + 1)
        (rule.cell cost ⟨i, iInside⟩ ⟨j, inside⟩ current.2 current.1[j + 1] current.1[j]),
        current.1[j + 1]))
    (row.set 0 Scalar.inf, row[0]) (partWay_start rule cost iInside known)
    (fun _ jInside _ before => partWay_set rule cost iInside jInside before)
  intro b bLe
  exact filled.overwritten b bLe bLe

theorem distance_eq_value :
    distance rule cost = value rule cost n m (Nat.le_refl n) (Nat.le_refl m) := by
  have filled := fold_invariant
    (fun i (row : Vector α (m + 1)) => ∀ iLe : i ≤ n, RowKnown rule cost i iLe row)
    (fun i inside (row : Vector α (m + 1)) => fillRow rule cost ⟨i, inside⟩ row) (topRow m)
    (topRow_rowKnown rule cost)
    (fun i inside row before _ =>
      fillRow_rowKnown rule cost inside (before (Nat.le_of_lt inside)))
  exact filled (Nat.le_refl n) m (Nat.le_refl m)

end OneRow

section Align

variable (cost : Fin n → Fin m → α) (plan : Plan α)

theorem align_distance :
    (align cost plan).distance = value plan.rule cost n m (Nat.le_refl n) (Nat.le_refl m) := by
  unfold align
  cases plan.storage with
  | twoRows => exact TwoRows.distance_eq_value plan.rule cost
  | oneRow => exact OneRow.distance_eq_value plan.rule cost
  | table =>
      dsimp only
      split
      · exact Table.distance_fill plan.rule cost
      · exact Table.distance_fill plan.rule cost

theorem align_path_of_unwanted (unwanted : plan.wantsPath = false) :
    (align cost plan).path = none := by
  unfold align
  cases plan.storage with
  | twoRows => rfl
  | oneRow => rfl
  | table => simp [unwanted]

theorem align_of_unwanted (unwanted : plan.wantsPath = false) :
    align cost plan =
      ⟨value plan.rule cost n m (Nat.le_refl n) (Nat.le_refl m), none⟩ := by
  rw [← align_distance cost plan, ← align_path_of_unwanted cost plan unwanted]

end Align

/-- The memory mode that asks for a storage. -/
def Storage.mode : Storage → Int
  | .table => 0
  | .twoRows => 1
  | .oneRow => 2

namespace Options

/-- The options with a storage of choice and no path asked for. -/
def distanceOnly (options : Options α) (storage : Storage) : Options α :=
  { options with wantsPath := false, memoryMode := storage.mode }

/-- Usable options without a path differ in the storage of their plan alone, so whatever is done
with the plan regardless of its storage comes out the same. -/
theorem plan_distanceOnly_bind {β : Type} (options : Options α) (first second : Storage)
    (use : Plan α → Outcome α β)
    (regardless : ∀ (rule : Rule α) (norm : α),
      use ⟨rule, first, false, norm⟩ = use ⟨rule, second, false, norm⟩) :
    (options.distanceOnly first).plan.bind use = (options.distanceOnly second).plan.bind use := by
  have storage (wanted : Storage) : (options.distanceOnly wanted).storage? = some wanted := by
    cases wanted <;> rfl
  have answer (wanted : Storage) :
      (options.distanceOnly wanted).plan =
        if options.window < -1 then
          .error ⟨[.window options.window], .badAlignment⟩
        else if !Scalar.finite options.slopePenalty || Scalar.lt options.slopePenalty 0 then
          .error ⟨[.slopePenalty options.slopePenalty], .badAlignment⟩
        else .ok ⟨⟨options.band, options.slopePenalty⟩, wanted, false, options.norm⟩ := by
    unfold plan
    rw [storage]
    rfl
  rw [answer first, answer second]
  split
  · rfl
  · split
    · rfl
    · exact regardless _ _

end Options

/-- The three storages compute the same distance for every grid of costs, every band and every
penalty, whatever the scalar does. So the alignment of two series, and of two trajectories, has the
same outcome under every storage when no path is asked for: the same distance, or the same error. -/
theorem storages_agree [Distances α] :
    (∀ {n m : Nat} (rule : Rule α) (cost : Fin n → Fin m → α),
      TwoRows.distance rule cost = Table.distance (Table.fill rule cost) ∧
        OneRow.distance rule cost = Table.distance (Table.fill rule cost)) ∧
      ∀ (options : Options α) (first second : Storage),
        (∀ a b : Array α,
          series a b (some (options.distanceOnly first)) =
            series a b (some (options.distanceOnly second))) ∧
          ∀ a b : Operand α,
            trajectories a b (some (options.distanceOnly first)) =
              trajectories a b (some (options.distanceOnly second)) := by
  refine ⟨?_, ?_⟩
  · intro n m rule cost
    rw [Table.distance_fill]
    exact ⟨TwoRows.distance_eq_value rule cost, OneRow.distance_eq_value rule cost⟩
  · intro options first second
    constructor
    · intro a b
      unfold series
      split
      · rfl
      · apply Options.plan_distanceOnly_bind
        intro rule norm
        rw [align_of_unwanted _ ⟨rule, first, false, norm⟩ rfl,
          align_of_unwanted _ ⟨rule, second, false, norm⟩ rfl,
          Plan.deliver_of_not_lost (Plan.lost_of_unwanted rfl _),
          Plan.deliver_of_not_lost (Plan.lost_of_unwanted rfl _)]
    · intro a b
      unfold trajectories
      split
      · rfl
      · split
        · rfl
        · split
          · rfl
          · apply Options.plan_distanceOnly_bind
            intro rule norm
            split
            · rfl
            · simp only [align_of_unwanted, Plan.lost_of_unwanted, Plan.deliver_of_not_lost]

end EchoState.Warping
