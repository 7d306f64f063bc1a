import EchoState.Proofs.Distance.Norms
import EchoState.Proofs.Matrix.Selector
import EchoState.Proofs.Reservoir.Base
import EchoState.Proofs.Warping.Representation

/-!
# Trajectories of one channel

A sample with one channel is a number, and the distance of two of them under the norms of order one
and two is the gap between the numbers: the Euclidean distance takes the only difference for its
scale, divides it by itself and takes the root of one. So the alignment of two trajectories of one
channel is that of the two series, down to the error where either is refused.
-/

namespace EchoState

/-- Under the norms of order one and two, the distance of two finite samples of one channel is the
gap between them. -/
class SingleDistances (α : Type) [Scalar α] [Distances α] : Prop where
  between_single {norm x y : α} (order : norm = 1 ∨ norm = Scalar.natural 2)
    (xFinite : Scalar.finite x) (yFinite : Scalar.finite y) :
    Distances.between norm [x] [y] = Scalar.abs (x - y)

namespace Binary64

open Float.Model

theorem abs_ne_neg_zero (x : Float) : Scalar.abs x ≠ -0 := by
  intro negative
  have values : (value x).abs = .zero .negative := by
    rw [← value_abs, negative, value_neg_zero]
  cases same : value x with
  | notANumber | infinity | zero | finite => rw [same] at values; cases values

theorem zero_div_abs {x : Float} (number : Scalar.isNaN x = false) (notZero : ¬Scalar.isZero x) :
    0 / Scalar.abs x = 0 := by
  have quotient : UnpackedFloat.div Format.binary64 (.zero .positive) (value (Scalar.abs x)) =
      .zero .positive := by
    rw [isZero_iff] at notZero
    rw [← isNaN_value] at number
    rw [value_abs]
    cases same : value x with
    | notANumber => rw [same] at number; cases number
    | zero sign => exact absurd ⟨sign, same⟩ notZero
    | infinity | finite => rfl
  apply value_injective
  rw [value_div, value_zero, quotient]
  exact repacked_of_representable (a := .zero .positive) trivial

end Binary64

namespace Distance

open Binary64

/-! ## Samples with one channel -/

/-- The distance under the norm of order one, empty samples included. -/
theorem ofOrder_of_eq_one {α : Type} [Scalar α] {p : α} (other : ¬Scalar.eq p (Scalar.natural 2))
    (one : Scalar.eq p 1) (s t : List α) :
    ofOrder p s t = if s.isEmpty then 0 else cityBlock s t := by
  unfold ofOrder
  rw [if_neg other, if_pos one]

theorem cityBlock_single (x y : Float) : cityBlock [x] [y] = Scalar.abs (x - y) := by
  show 0 + Scalar.abs (y - x) = Scalar.abs (x - y)
  rw [zero_add_of_ne (abs_ne_neg_zero _), abs_sub_comm]

/-- A difference beyond the scale becomes the scale. -/
theorem scaledRoot_of_larger {α : Type} [Scalar α] {scale squares x : α} (rest : List α)
    (notZero : ¬Scalar.isZero x) (number : Scalar.isNaN (Scalar.abs x) = false)
    (larger : Scalar.lt scale (Scalar.abs x)) :
    scaledRoot scale squares (x :: rest) =
      scaledRoot (Scalar.abs x)
        (1 + squares * (scale / Scalar.abs x) * (scale / Scalar.abs x)) rest := by
  rw [scaledRoot]
  dsimp only
  rw [if_neg notZero, number, if_neg Bool.false_ne_true, if_pos larger]

theorem scaledRoot_single {x : Float} (number : Scalar.isNaN x = false) :
    scaledRoot 0 1 [x] = Scalar.abs x := by
  by_cases zero : Scalar.isZero x
  · rw [abs_eq_zero_iff.mpr zero, scaledRoot_of_isZero _ _ (by simpa using zero)]
    with_unfolding_all rfl
  have sizeNumber : Scalar.isNaN (Scalar.abs x) = false :=
    (MeasuredScalar.isNaN_abs x).trans number
  have above : Scalar.lt 0 (Scalar.abs x) :=
    OrderedScalar.lt_iff.mpr
      ⟨zero_le_abs number, fun atMost => zero (abs_eq_zero_iff.mp (abs_eq_zero atMost))⟩
  have squares : (1 + 1 * 0 * 0 : Float) = 1 := by with_unfolding_all rfl
  have scaled : scaledRoot 0 1 [x] = scaledRoot (Scalar.abs x) 1 [] := by
    rw [scaledRoot_of_larger [] zero sizeNumber above, zero_div_abs number zero]
    exact congrArg (scaledRoot (Scalar.abs x) · []) squares
  rw [scaled, scaledRoot]
  cases sizeFinite : Scalar.finite (Scalar.abs x) with
  | true =>
      have below : ¬Scalar.eq (Scalar.abs x) Scalar.inf = true := fun same =>
        (OrderedScalar.lt_iff.mp (lt_inf_of_finite sizeFinite)).2 (OrderedScalar.eq_iff.mp same).2
      have root : Scalar.sqrt (1 : Float) = 1 := by with_unfolding_all rfl
      rw [if_neg below]
      exact (congrArg (Scalar.abs x * ·) root).trans
        (mul_one_of_finite sizeFinite)
  | false =>
      rw [abs_eq_inf number (by rw [sizeFinite]; exact Bool.false_ne_true)]
      exact if_pos (by with_unfolding_all decide)

/-- Under the norms of order one and two, the distance of two samples of one channel is the gap
between them. -/
theorem ofOrder_single {norm x y : Float} (order : norm = 1 ∨ norm = Scalar.natural 2)
    (xFinite : Scalar.finite x) (yFinite : Scalar.finite y) :
    ofOrder norm [x] [y] = Scalar.abs (x - y) := by
  rcases order with rfl | rfl
  · rw [ofOrder_of_eq_one (by with_unfolding_all decide) (by with_unfolding_all decide)]
    exact cityBlock_single x y
  · rw [ofOrder_two]
    exact scaledRoot_single (isNaN_sub xFinite yFinite)

end Distance

instance : SingleDistances Float where
  between_single := Distance.ofOrder_single

namespace Warping

/-! ## Trajectories of one channel -/

section Rows

variable {α : Type} [Scalar α] [Distances α] {a b : Array α} {left : Sheet α 1 a.size}
  {right : Sheet α 1 b.size}

/-- Where the norm is accepted and the distances of the samples are the gaps of the numbers,
trajectories of one channel are aligned, or refused, as the series are. -/
theorem trajectories_eq_series (aFits : 1 * a.size < wordLimit) (bFits : 1 * b.size < wordLimit)
    {options : Option (Options α)}
    (norm : ∀ plan, Options.resolve options = .ok plan →
      Scalar.isNaN plan.norm = false ∧ Scalar.lt plan.norm 1 = false)
    (gaps : ∀ plan, Options.resolve options = .ok plan →
      columnGrid plan.norm left right = gapGrid a b) :
    trajectories (.stored ⟨1, a.size, left⟩) (.stored ⟨1, b.size, right⟩) options =
      series a b options := by
  have empty : (((a.size : Nat) : Int) = 0 ∨ ((b.size : Nat) : Int) = 0) ↔
      (a.isEmpty || b.isEmpty) = true := by
    simp [Array.isEmpty_iff]
  have given : ¬(Operand.isAbsent (.stored ⟨1, a.size, left⟩) ||
      Operand.isAbsent (.stored ⟨1, b.size, right⟩)) = true := Bool.false_ne_true
  have channels : Operand.rows (.stored ⟨1, a.size, left⟩) =
      Operand.rows (.stored ⟨1, b.size, right⟩) := rfl
  unfold trajectories series
  rw [if_neg given, if_neg (not_not.mpr channels)]
  refine if_congr empty rfl ?_
  cases resolved : Options.resolve options with
  | error error => rfl
  | ok plan =>
      obtain ⟨number, large⟩ := norm plan resolved
      rw [Outcome.ok_bind, Outcome.ok_bind, number, large, columns_stored aFits,
        columns_stored bFits]
      show plan.deliver (align (sampleGrid plan.norm _ _) plan) =
        plan.deliver (align (gapGrid a b) plan)
      rw [align_sampleGrid_columns, gaps plan resolved]

end Rows

/-- The samples of a matrix with one row are the values it is filled with. -/
theorem get_of_values {α : Type} [Scalar α] {a : Array α} (fits : 1 * a.size < wordLimit)
    {sheet : Sheet α 1 a.size} (filled : sheet.values = a) (k : Fin 1) (j : Fin a.size) :
    sheet.get k j = a.toVector.get j := by
  have read := Sheet.getElem_values fits sheet k j
  obtain rfl := Fin.fin_one_eq_zero k
  have place : (0 : Fin 1).val * a.size + j.val = j.val := by
    rw [Fin.val_zero, Nat.zero_mul, Nat.zero_add]
  rw [filled, place, Array.getElem?_eq_getElem j.isLt] at read
  exact (Option.some.inj read).symm

/-- Between two matrices with one row of finite values, the distances under the norms of order one
and two are the gaps. -/
theorem columnGrid_eq_gapGrid {α : Type} [Scalar α] [Distances α] [SingleDistances α]
    {a b : Array α} {norm : α} (order : norm = 1 ∨ norm = Scalar.natural 2)
    (aFinite : AllFinite a) (bFinite : AllFinite b)
    {left : Sheet α 1 a.size} {right : Sheet α 1 b.size}
    (leftFilled : ∀ k j, left.get k j = a.toVector.get j)
    (rightFilled : ∀ k j, right.get k j = b.toVector.get j) :
    columnGrid norm left right = gapGrid a b := by
  funext i j
  unfold columnGrid
  rw [List.ofFn_succ, List.ofFn_zero, List.ofFn_succ, List.ofFn_zero, leftFilled, rightFilled]
  exact SingleDistances.between_single order (aFinite _ (Array.getElem_mem i.isLt))
    (bFinite _ (Array.getElem_mem j.isLt))

theorem accepted_of_order {norm : Float} (order : norm = 1 ∨ norm = Scalar.natural 2) :
    Scalar.isNaN norm = false ∧ Scalar.lt norm 1 = false := by
  rcases order with rfl | rfl <;> with_unfolding_all decide

/-- Under the norms of order one and two, two trajectories of one channel that are built from finite
series, be they stored or behind a reader, are aligned as the series are: with the same distance and
the same path, or with the same error. -/
theorem trajectories_single_channel {a b : Array Float} (options : Option (Options Float))
    (aFits : a.size < wordLimit) (bFits : b.size < wordLimit)
    (aFinite : AllFinite a) (bFinite : AllFinite b)
    (order : (options.getD .standard).norm = 1 ∨
      (options.getD .standard).norm = Scalar.natural 2) :
    ∃ (left : Sheet Float 1 a.size) (right : Sheet Float 1 b.size),
      Matrix.ofValues 1 a.size a = .ok ⟨1, a.size, left⟩ ∧
      Matrix.ofValues 1 b.size b = .ok ⟨1, b.size, right⟩ ∧
      trajectories (.stored ⟨1, a.size, left⟩) (.stored ⟨1, b.size, right⟩) options =
        series a b options ∧
      ∀ x y : Operand Float, x.Shows left → y.Shows right →
        trajectories x y options = series a b options := by
  have aFits : 1 * a.size < wordLimit := by omega
  have bFits : 1 * b.size < wordLimit := by omega
  obtain ⟨left, leftFilled, leftMade⟩ :=
    Matrix.ofValues_of_finite aFits (Nat.one_mul _).symm aFinite
  obtain ⟨right, rightFilled, rightMade⟩ :=
    Matrix.ofValues_of_finite bFits (Nat.one_mul _).symm bFinite
  have chosen {plan : Plan Float} (planned : Options.resolve options = .ok plan) :
      plan.norm = 1 ∨ plan.norm = Scalar.natural 2 := by
    obtain ⟨-, storage, -, rfl⟩ := Options.plan_eq_ok_iff.mp planned
    exact order
  have stored : trajectories (.stored ⟨1, a.size, left⟩) (.stored ⟨1, b.size, right⟩) options =
      series a b options :=
    trajectories_eq_series aFits bFits (fun plan planned => accepted_of_order (chosen planned))
      fun plan planned => columnGrid_eq_gapGrid (chosen planned) aFinite bFinite
        (get_of_values aFits leftFilled) (get_of_values bFits rightFilled)
  refine ⟨left, right, leftMade, rightMade, stored, fun x y leftShown rightShown => ?_⟩
  exact (trajectories_of_shows leftShown rightShown options).trans stored

/-- Two and three samples of one channel with their path, and a trajectory without samples. -/
theorem trajectories_single_channel_binary64 :
    let a : Array Float := #[0, 1]
    let b : Array Float := #[0, 1, 3]
    let options : Options Float := ⟨1, 0.5, true, 0, 1⟩
    (∃ left right, Matrix.ofValues 1 2 a = .ok left ∧ Matrix.ofValues 1 3 b = .ok right ∧
      ∃ alignment, trajectories (.stored left) (.stored right) (some options) = .ok alignment ∧
        alignment.distance = 2.5 ∧ alignment.path = some [(0, 0), (1, 1), (1, 2)]) ∧
      ∃ left right, Matrix.ofValues 1 2 a = .ok left ∧ Matrix.ofValues 1 0 #[] = .ok right ∧
        trajectories (.stored left) (.stored right) none = .error (.of .emptySeries) := by
  intro a b options
  have aFinite : AllFinite a := by with_unfolding_all decide
  have bFinite : AllFinite b := by with_unfolding_all decide
  constructor
  · obtain ⟨left, right, leftMade, rightMade, aligned, -⟩ :=
      trajectories_single_channel (some options) (by decide) (by decide) aFinite bFinite
        (Or.inl rfl)
    have usable : options.Usable :=
      ⟨by decide, by with_unfolding_all decide, by with_unfolding_all decide, ⟨.table, rfl⟩,
        fun _ => rfl⟩
    let plan : Plan Float := ⟨options.rule, .table, options.wantsPath, options.norm⟩
    have planned : Options.resolve (some options) = .ok plan :=
      Options.plan_eq_ok_iff.mpr ⟨usable, .table, rfl, rfl⟩
    have same : series a b (some options) = .ok (align (gapGrid a b) plan) :=
      series_eq_ok_iff.mpr ⟨by decide, by decide, _, planned, by decide +kernel, rfl⟩
    have run : (align (gapGrid a b) plan).distance = 2.5 ∧
        (align (gapGrid a b) plan).path = some [(0, 0), (1, 1), (1, 2)] := by
      decide +kernel
    exact ⟨_, _, leftMade, rightMade, _, aligned.trans same, run⟩
  · obtain ⟨left, right, leftMade, rightMade, aligned, -⟩ :=
      trajectories_single_channel (b := #[]) none (by decide) (by decide) aFinite nofun
        (Or.inr rfl)
    exact ⟨_, _, leftMade, rightMade, aligned⟩

end Warping

end EchoState
