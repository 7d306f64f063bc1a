import EchoState.Scalar

/-!
# Laws of comparison and addition

What the theory asks of a scalar beyond its operations. An ordered scalar compares its numbers
totally and transitively, and compares nothing with what is no number. An additive scalar adds
values from zero up without reversing their order, and infinity absorbs them. A measured scalar has
absolute values. Equality of two values is numerical throughout, so that the two zeros need not be
the same value.
-/

namespace EchoState

/-- A scalar whose order is a total preorder on the values that are numbers. -/
class OrderedScalar (α : Type) [Scalar α] : Prop where
  le_refl : ∀ {x : α}, Scalar.isNaN x = false → Scalar.le x x
  le_trans : ∀ {x y z : α}, Scalar.le x y → Scalar.le y z → Scalar.le x z
  le_total : ∀ {x y : α}, Scalar.isNaN x = false → Scalar.isNaN y = false →
    Scalar.le x y ∨ Scalar.le y x
  numbers_of_le : ∀ {x y : α}, Scalar.le x y → Scalar.isNaN x = false ∧ Scalar.isNaN y = false
  lt_iff : ∀ {x y : α}, Scalar.lt x y ↔ Scalar.le x y ∧ ¬Scalar.le y x
  eq_iff : ∀ {x y : α}, Scalar.eq x y ↔ Scalar.le x y ∧ Scalar.le y x

/-- An ordered scalar whose addition respects the order from zero up. -/
class AdditiveScalar (α : Type) [Scalar α] : Prop extends OrderedScalar α where
  add_le_add : ∀ {x y z w : α}, Scalar.le 0 x → Scalar.le x y → Scalar.le 0 z → Scalar.le z w →
    Scalar.le (x + z) (y + w)
  add_zero : ∀ {x : α}, Scalar.le 0 x → Scalar.eq (x + 0) x
  zero_le_inf : Scalar.le (0 : α) Scalar.inf
  inf_add : ∀ {x : α}, Scalar.le 0 x → Scalar.inf + x = Scalar.inf
  add_inf : ∀ {x : α}, Scalar.le 0 x → x + Scalar.inf = Scalar.inf

/-- An ordered scalar in which zero is finite and small, one is a number, and a value is a number
exactly when its absolute value is. -/
class MeasuredScalar (α : Type) [Scalar α] : Prop extends OrderedScalar α where
  finite_zero : Scalar.finite (0 : α)
  isNaN_one : Scalar.isNaN (1 : α) = false
  abs_zero_lt_one : Scalar.lt (Scalar.abs (0 : α)) 1
  isNaN_abs : ∀ x : α, Scalar.isNaN (Scalar.abs x) = Scalar.isNaN x

namespace Scalar

variable {α : Type} [Scalar α]

theorem least_eq (a b c : α) : least a b c = a ∨ least a b c = b ∨ least a b c = c := by
  unfold least
  split
  · split
    · exact Or.inl rfl
    · exact Or.inr (Or.inr rfl)
  · split
    · exact Or.inr (Or.inl rfl)
    · exact Or.inr (Or.inr rfl)

theorem le_least {x a b c : α} (atMostA : le x a) (atMostB : le x b) (atMostC : le x c) :
    le x (least a b c) := by
  rcases least_eq a b c with same | same | same
  · rw [same]
    exact atMostA
  · rw [same]
    exact atMostB
  · rw [same]
    exact atMostC

theorem le_of_least_le {x a b c : α} (atMost : le (least a b c) x) : le a x ∨ le b x ∨ le c x := by
  rcases least_eq a b c with same | same | same
  · exact Or.inl (same ▸ atMost)
  · exact Or.inr (Or.inl (same ▸ atMost))
  · exact Or.inr (Or.inr (same ▸ atMost))

theorem isNaN_of_finite {x : α} (isFinite : finite x) : isNaN x = false := by
  simp only [finite, Bool.and_eq_true, Bool.not_eq_true'] at isFinite
  exact isFinite.1

section Ordered

variable [OrderedScalar α]

open OrderedScalar

theorem le_of_lt {x y : α} (below : lt x y) : le x y :=
  (lt_iff.mp below).1

theorem le_of_not_lt {x y : α} (xNumber : isNaN x = false) (yNumber : isNaN y = false)
    (notBelow : ¬lt x y) : le y x := by
  rcases le_total xNumber yNumber with forward | backward
  · by_cases back : le y x
    · exact back
    · exact absurd (lt_iff.mpr ⟨forward, back⟩) notBelow
  · exact backward

theorem lt_of_not_le {x y : α} (xNumber : isNaN x = false) (yNumber : isNaN y = false)
    (notAtMost : ¬le x y) : lt y x := by
  rcases le_total xNumber yNumber with forward | backward
  · exact absurd forward notAtMost
  · exact lt_iff.mpr ⟨backward, notAtMost⟩

theorem lt_of_le_of_lt {x y z : α} (atMost : le x y) (below : lt y z) : lt x z := by
  obtain ⟨onward, notBack⟩ := lt_iff.mp below
  exact lt_iff.mpr ⟨le_trans atMost onward, fun back => notBack (le_trans back atMost)⟩

theorem le_of_eq {x y : α} (same : eq x y) : le x y :=
  (eq_iff.mp same).1

theorem eq_trans {x y z : α} (left : eq x y) (right : eq y z) : eq x z := by
  obtain ⟨xy, yx⟩ := eq_iff.mp left
  obtain ⟨yz, zy⟩ := eq_iff.mp right
  exact eq_iff.mpr ⟨le_trans xy yz, le_trans zy yx⟩

/-- The least of three numbers is at most each of them. -/
theorem least_le {a b c : α} (aNumber : isNaN a = false) (bNumber : isNaN b = false)
    (cNumber : isNaN c = false) :
    le (least a b c) a ∧ le (least a b c) b ∧ le (least a b c) c := by
  unfold least
  by_cases ab : lt a b
  · rw [if_pos ab]
    by_cases ac : lt a c
    · rw [if_pos ac]
      exact ⟨le_refl aNumber, le_of_lt ab, le_of_lt ac⟩
    · rw [if_neg ac]
      have ca := le_of_not_lt aNumber cNumber ac
      exact ⟨ca, le_trans ca (le_of_lt ab), le_refl cNumber⟩
  · rw [if_neg ab]
    have ba := le_of_not_lt aNumber bNumber ab
    by_cases bc : lt b c
    · rw [if_pos bc]
      exact ⟨ba, le_refl bNumber, le_of_lt bc⟩
    · rw [if_neg bc]
      have cb := le_of_not_lt bNumber cNumber bc
      exact ⟨le_trans cb ba, cb, le_refl cNumber⟩

theorem least_mono {a b c a' b' c' : α} (aLe : le a a') (bLe : le b b') (cLe : le c c') :
    le (least a b c) (least a' b' c') := by
  obtain ⟨leA, leB, leC⟩ := least_le (numbers_of_le aLe).1 (numbers_of_le bLe).1
    (numbers_of_le cLe).1
  exact le_least (le_trans leA aLe) (le_trans leB bLe) (le_trans leC cLe)

theorem least_swap {a b c : α} (aNumber : isNaN a = false) (bNumber : isNaN b = false)
    (cNumber : isNaN c = false) : eq (least a b c) (least a c b) := by
  obtain ⟨leA, leB, leC⟩ := least_le aNumber bNumber cNumber
  obtain ⟨leA', leC', leB'⟩ := least_le aNumber cNumber bNumber
  exact eq_iff.mpr ⟨le_least leA leC leB, le_least leA' leB' leC'⟩

/-- The choice that prefers the first of three numbers on a tie, and then the second, is numerically
the least of them, though `least` itself prefers the last. -/
theorem least_eq_choice {a b c : α} (aNumber : isNaN a = false) (bNumber : isNaN b = false)
    (cNumber : isNaN c = false) :
    eq (least a b c) (if le a b && le a c then a else if le b c then b else c) := by
  obtain ⟨leA, leB, leC⟩ := least_le aNumber bNumber cNumber
  have chosen {x : α} (belowA : le x a) (belowB : le x b) (belowC : le x c)
      (above : le (least a b c) x) : eq (least a b c) x :=
    eq_iff.mpr ⟨above, le_least belowA belowB belowC⟩
  by_cases first : (le a b && le a c) = true
  · rw [if_pos first]
    rw [Bool.and_eq_true] at first
    exact chosen (le_refl aNumber) first.1 first.2 leA
  · rw [if_neg first]
    rw [Bool.and_eq_true, Classical.not_and_iff_not_or_not] at first
    by_cases second : le b c = true
    · rw [if_pos second]
      have ba : le b a := by
        rcases first with notAtMost | notAtMost
        · exact le_of_lt (lt_of_not_le aNumber bNumber notAtMost)
        · exact le_trans second (le_of_lt (lt_of_not_le aNumber cNumber notAtMost))
      exact chosen ba (le_refl bNumber) second leB
    · rw [if_neg second]
      have cb : le c b := le_of_lt (lt_of_not_le bNumber cNumber second)
      have ca : le c a := by
        rcases first with notAtMost | notAtMost
        · exact le_trans cb (le_of_lt (lt_of_not_le aNumber bNumber notAtMost))
        · exact le_of_lt (lt_of_not_le aNumber cNumber notAtMost)
      exact chosen ca cb (le_refl cNumber) leC

end Ordered

section Measured

variable [MeasuredScalar α]

open OrderedScalar MeasuredScalar

theorem abs_lt_one {x : α} (isFinite : finite x) (notLarge : ¬le 1 (abs x)) : lt (abs x) 1 := by
  have number : isNaN (abs x) = false := by
    rw [isNaN_abs]
    exact isNaN_of_finite isFinite
  exact lt_of_not_le isNaN_one number notLarge

theorem finite_of_positiveFinite {x : α} (positive : positiveFinite x) : finite x := by
  simp only [positiveFinite, Bool.and_eq_true] at positive
  simp only [finite, Bool.and_eq_true, Bool.not_eq_true']
  obtain ⟨above, notInf⟩ := positive
  exact ⟨(numbers_of_le (le_of_lt above)).2, by simpa using notInf⟩

end Measured

section Additive

variable [AdditiveScalar α]

open OrderedScalar AdditiveScalar

theorem number_of_nonneg {x : α} (nonneg : le 0 x) : isNaN x = false :=
  (numbers_of_le nonneg).2

theorem zero_le_zero : le (0 : α) 0 := by
  have below : le (0 : α) inf := zero_le_inf
  exact le_refl (numbers_of_le below).1

theorem add_nonneg {x y : α} (xNonneg : le 0 x) (yNonneg : le 0 y) : le 0 (x + y) := by
  have zeros : le (0 : α) (0 + 0) := (eq_iff.mp (add_zero zero_le_zero)).2
  exact le_trans zeros (add_le_add zero_le_zero xNonneg zero_le_zero yNonneg)

theorem add_eq_add_left {x y z : α} (zNonneg : le 0 z) (xNonneg : le 0 x) (yNonneg : le 0 y)
    (same : eq x y) : eq (z + x) (z + y) := by
  obtain ⟨xy, yx⟩ := eq_iff.mp same
  have zz := le_refl (number_of_nonneg zNonneg)
  exact eq_iff.mpr ⟨add_le_add zNonneg zz xNonneg xy, add_le_add zNonneg zz yNonneg yx⟩

theorem add_eq_add_right {x y z : α} (zNonneg : le 0 z) (xNonneg : le 0 x) (yNonneg : le 0 y)
    (same : eq x y) : eq (x + z) (y + z) := by
  obtain ⟨xy, yx⟩ := eq_iff.mp same
  have zz := le_refl (number_of_nonneg zNonneg)
  exact eq_iff.mpr ⟨add_le_add xNonneg xy zNonneg zz, add_le_add yNonneg yx zNonneg zz⟩

theorem le_add_right {x y : α} (xNonneg : le 0 x) (yNonneg : le 0 y) : le x (x + y) := by
  have raised : le (x + 0) (x + y) :=
    add_le_add xNonneg (le_refl (number_of_nonneg xNonneg)) zero_le_zero yNonneg
  exact le_trans (eq_iff.mp (add_zero xNonneg)).2 raised

theorem le_inf {x : α} (nonneg : le 0 x) : le x inf := by
  have raised : le x (x + inf) := le_add_right nonneg zero_le_inf
  rwa [add_inf nonneg] at raised

theorem lt_inf_of_ne {x : α} (nonneg : le 0 x) (finite : ¬eq x inf) : lt x inf :=
  lt_iff.mpr ⟨le_inf nonneg, fun above => finite (eq_iff.mpr ⟨le_inf nonneg, above⟩)⟩

theorem inf_eq_inf : eq (inf : α) inf := by
  have number : isNaN (inf : α) = false := number_of_nonneg zero_le_inf
  exact eq_iff.mpr ⟨le_refl number, le_refl number⟩

theorem not_inf_lt_inf : ¬lt (inf : α) inf := fun below =>
  (lt_iff.mp below).2 (lt_iff.mp below).1

theorem lt_inf_of_add {x y : α} (xNonneg : le 0 x) (yNonneg : le 0 y) (below : lt (x + y) inf) :
    lt x inf ∧ lt y inf := by
  have infNumber : isNaN (inf : α) = false := number_of_nonneg zero_le_inf
  have notAbove : ¬le inf (x + y) := (lt_iff.mp below).2
  constructor
  · refine lt_of_not_le infNumber (number_of_nonneg xNonneg) fun above => notAbove ?_
    have raised := add_le_add zero_le_inf above zero_le_zero yNonneg
    rwa [AdditiveScalar.inf_add zero_le_zero] at raised
  · refine lt_of_not_le infNumber (number_of_nonneg yNonneg) fun above => notAbove ?_
    have raised := add_le_add zero_le_zero xNonneg zero_le_inf above
    rwa [AdditiveScalar.add_inf zero_le_zero] at raised

end Additive

end Scalar

end EchoState
