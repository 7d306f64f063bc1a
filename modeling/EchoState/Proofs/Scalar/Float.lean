import EchoState.Proofs.Binary64.Rounding
import EchoState.Proofs.Scalar.Order
import EchoState.Proofs.Scalar.Zero
import EchoState.Scalar.Float

/-!
# The running scalar keeps the laws

Binary64 numbers compare as their counts of units do, and their sums from zero up are the rounded
sums of these counts.
-/

namespace EchoState.Binary64

open Float.Model Float.Model.UnpackedFloat

def value (x : Float) : UnpackedFloat :=
  x.toModel.unpack

theorem representable_value (x : Float) : Representable (value x) :=
  representable_unpack _

theorem isNaN_value (x : Float) : (value x).isNaN = Scalar.isNaN x :=
  rfl

theorem le_eq (x y : Float) : Scalar.le x y = (value x).le (value y) := by
  show decide (decide ((value x).le (value y) = true) = true) = _
  rw [Bool.decide_eq_true, Bool.decide_eq_true]

theorem lt_eq (x y : Float) : Scalar.lt x y = (value x).lt (value y) := by
  show decide (decide ((value x).lt (value y) = true) = true) = _
  rw [Bool.decide_eq_true, Bool.decide_eq_true]

theorem eq_eq (x y : Float) : Scalar.eq x y = (value x).beq (value y) :=
  rfl

theorem le_iff {x y : Float} :
    Scalar.le x y ↔
      Scalar.isNaN x = false ∧ Scalar.isNaN y = false ∧ count (value x) ≤ count (value y) := by
  have test := test_compare_iff (representable_value x) (representable_value y)
    (fun order => order.any (·.isLE)) rfl
  rw [le_eq]
  exact test.trans (and_congr_right' (and_congr_right' Int.isLE_compare))

theorem lt_iff {x y : Float} :
    Scalar.lt x y ↔
      Scalar.isNaN x = false ∧ Scalar.isNaN y = false ∧ count (value x) < count (value y) := by
  have test := test_compare_iff (representable_value x) (representable_value y)
    (fun order => order == some .lt) rfl
  rw [lt_eq]
  refine test.trans ?_
  rw [beq_iff_eq, Option.some_inj, Int.compare_eq_lt, isNaN_value, isNaN_value]

theorem eq_iff {x y : Float} :
    Scalar.eq x y ↔
      Scalar.isNaN x = false ∧ Scalar.isNaN y = false ∧ count (value x) = count (value y) := by
  have test := test_compare_iff (representable_value x) (representable_value y)
    (fun order => order == some .eq) rfl
  rw [eq_eq]
  refine test.trans ?_
  rw [beq_iff_eq, Option.some_inj, Int.compare_eq_eq, isNaN_value, isNaN_value]

theorem value_add (x y : Float) :
    value (x + y) = repacked (UnpackedFloat.add Format.binary64 (value x) (value y)) :=
  rfl

theorem value_zero : value 0 = .zero .positive := by
  rfl

theorem pack_infinity : Float.ofModel (pack (.infinity .positive)) = Scalar.inf := by
  have bits : pack (.infinity .positive) = (Scalar.inf : Float).toModel := by decide +kernel
  rw [bits]

theorem value_inf : value Scalar.inf = .infinity .positive := by
  rw [← pack_infinity]
  exact unpack_pack_infinity .positive

theorem isNaN_abs (a : UnpackedFloat) : a.abs.isNaN = a.isNaN := by
  cases a <;> rfl

theorem representable_abs {a : UnpackedFloat} (has : Representable a) : Representable a.abs := by
  cases a <;> exact has

theorem value_abs (x : Float) : value (Scalar.abs x) = (value x).abs :=
  repacked_of_representable (representable_abs (representable_value x))

theorem fromZero_value {x : Float} (nonneg : Scalar.le 0 x) : FromZero (value x) := by
  obtain ⟨_, number, atLeast⟩ := le_iff.mp nonneg
  rw [value_zero] at atLeast
  exact ⟨representable_value x, number, atLeast⟩

theorem add_of_infinity {x y : Float}
    (infinite : UnpackedFloat.add Format.binary64 (value x) (value y) = .infinity .positive) :
    x + y = Scalar.inf := by
  rw [← pack_infinity, ← infinite]
  rfl

theorem value_injective {x y : Float} (same : value x = value y) : x = y := by
  obtain ⟨⟨⟨xBits⟩, xValid⟩⟩ := x
  obtain ⟨⟨⟨yBits⟩, yValid⟩⟩ := y
  have bits : xBits = yBits := (UnpackedFloat.unpack_inj_of_valid xValid yValid).mp same
  subst bits
  rfl

theorem value_mul (x y : Float) :
    value (x * y) = repacked (UnpackedFloat.mul Format.binary64 (value x) (value y)) :=
  rfl

theorem value_neg_zero : value (-0) = .zero .negative := by
  rfl

theorem isZero_iff {x : Float} : Scalar.isZero x ↔ ∃ sign, value x = .zero sign := by
  show (value x).beq (.zero .positive) = true ↔ _
  cases value x with
  | notANumber => simp [UnpackedFloat.beq, UnpackedFloat.compare]
  | infinity sign => cases sign <;> simp [UnpackedFloat.beq, UnpackedFloat.compare]
  | zero sign => simp [UnpackedFloat.beq, UnpackedFloat.compare]
  | finite sign m e positive => cases sign <;> simp [UnpackedFloat.beq, UnpackedFloat.compare]

theorem finite_iff {x : Float} :
    Scalar.finite x ↔ (∃ sign, value x = .zero sign) ∨
      ∃ sign m e positive, value x = .finite sign m e positive := by
  show ((!(value x).isNaN) && !(value x).isInf) = true ↔ _
  cases value x with
  | notANumber => simp [UnpackedFloat.isNaN]
  | infinity sign => simp [UnpackedFloat.isInf]
  | zero sign => simp [UnpackedFloat.isNaN, UnpackedFloat.isInf]
  | finite sign m e positive =>
      simp only [UnpackedFloat.isNaN, UnpackedFloat.isInf]
      exact iff_of_true rfl (Or.inr ⟨sign, m, e, positive, rfl⟩)

/-- A finite number times a zero is a zero, in either order. -/
theorem mul_zero_of_finite {x : Float} (finite : Scalar.finite x) (zeroSign : UnpackedFloat.Sign) :
    (∃ sign, UnpackedFloat.mul Format.binary64 (value x) (.zero zeroSign) = .zero sign) ∧
      ∃ sign, UnpackedFloat.mul Format.binary64 (.zero zeroSign) (value x) = .zero sign := by
  rcases finite_iff.mp finite with ⟨sign, same⟩ | ⟨sign, m, e, positive, same⟩
  · rw [same]
    exact ⟨⟨_, rfl⟩, ⟨_, rfl⟩⟩
  · rw [same]
    exact ⟨⟨_, rfl⟩, ⟨_, rfl⟩⟩

theorem parts_of_compare {m m' : Nat} {e e' : Int}
    (same : (compare e e').then (compare m m') = .eq) : m = m' ∧ e = e' := by
  obtain ⟨exponents, significands⟩ := Ordering.then_eq_eq.mp same
  exact ⟨Nat.compare_eq_eq.mp significands, Int.compare_eq_eq.mp exponents⟩

theorem eq_or_zeros_of_compare {a b : UnpackedFloat} (same : a.compare b = some .eq) :
    a = b ∨ ∃ s t, a = .zero s ∧ b = .zero t := by
  cases a with
  | notANumber => cases b <;> cases same
  | infinity s =>
      cases b with
      | infinity t => cases s <;> cases t <;> first | exact Or.inl rfl | cases same
      | _ => cases s <;> cases same
  | zero s =>
      cases b with
      | zero t => exact Or.inr ⟨s, t, rfl, rfl⟩
      | notANumber => cases same
      | _ t => cases t <;> cases same
  | finite s m e positive =>
      cases b with
      | notANumber => cases same
      | infinity t => cases t <;> cases same
      | zero t => cases s <;> cases same
      | finite t m' e' positive' =>
          cases s with
          | negative =>
              cases t with
              | negative =>
                  obtain ⟨rfl, rfl⟩ :=
                    parts_of_compare (Ordering.swap_eq_eq.mp (Option.some.inj same))
                  exact Or.inl rfl
              | positive => cases same
          | positive =>
              cases t with
              | negative => cases same
              | positive =>
                  obtain ⟨rfl, rfl⟩ := parts_of_compare (Option.some.inj same)
                  exact Or.inl rfl

theorem eq_or_zeros_of_eq {x y : Float} (same : Scalar.eq x y) :
    x = y ∨ ∃ s t, value x = .zero s ∧ value y = .zero t := by
  rw [eq_eq] at same
  rcases eq_or_zeros_of_compare (eq_of_beq same) with values | zeros
  · exact Or.inl (value_injective values)
  · exact Or.inr zeros

theorem eq_zero_of_isZero {x : Float} (zero : Scalar.isZero x) (other : x ≠ -0) : x = 0 := by
  obtain ⟨sign, same⟩ := isZero_iff.mp zero
  cases sign with
  | negative => exact absurd (value_injective (same.trans value_neg_zero.symm)) other
  | positive => exact value_injective (same.trans value_zero.symm)

end EchoState.Binary64

namespace EchoState

open Binary64 Float.Model

instance : OrderedScalar Float where
  le_refl number := Binary64.le_iff.mpr ⟨number, number, Int.le_refl _⟩
  le_trans forward onward := by
    obtain ⟨xNumber, _, atMost⟩ := Binary64.le_iff.mp forward
    obtain ⟨_, zNumber, atMost'⟩ := Binary64.le_iff.mp onward
    exact Binary64.le_iff.mpr ⟨xNumber, zNumber, Int.le_trans atMost atMost'⟩
  le_total {x y} xNumber yNumber := by
    rcases Int.le_total (count (value x)) (count (value y)) with atMost | atLeast
    · exact Or.inl (Binary64.le_iff.mpr ⟨xNumber, yNumber, atMost⟩)
    · exact Or.inr (Binary64.le_iff.mpr ⟨yNumber, xNumber, atLeast⟩)
  numbers_of_le atMost := by
    obtain ⟨xNumber, yNumber, _⟩ := Binary64.le_iff.mp atMost
    exact ⟨xNumber, yNumber⟩
  lt_iff := by
    intro x y
    rw [Binary64.lt_iff, Binary64.le_iff, Binary64.le_iff]
    grind
  eq_iff := by
    intro x y
    rw [Binary64.eq_iff, Binary64.le_iff, Binary64.le_iff]
    grind

instance : AdditiveScalar Float where
  add_le_add {x y z w} xNonneg xy zNonneg zw := by
    have yNonneg := OrderedScalar.le_trans xNonneg xy
    have wNonneg := OrderedScalar.le_trans zNonneg zw
    obtain ⟨number, sum⟩ := count_repacked_add (fromZero_value xNonneg) (fromZero_value zNonneg)
    obtain ⟨number', sum'⟩ := count_repacked_add (fromZero_value yNonneg) (fromZero_value wNonneg)
    obtain ⟨_, _, first⟩ := Binary64.le_iff.mp xy
    obtain ⟨_, _, second⟩ := Binary64.le_iff.mp zw
    refine Binary64.le_iff.mpr ⟨number, number', ?_⟩
    rw [value_add, value_add, sum, sum']
    have sums : (count (value x)).toNat + (count (value z)).toNat ≤
        (count (value y)).toNat + (count (value w)).toNat := by omega
    have roundedSums := rounded_mono sums
    omega
  add_zero {x} nonneg := by
    have fromZero := fromZero_value nonneg
    have zero : FromZero (value 0) := by
      rw [value_zero]
      exact ⟨trivial, rfl, Int.le_refl _⟩
    obtain ⟨number, sum⟩ := count_repacked_add fromZero zero
    rw [← value_add, value_zero, count_zero, Int.toNat_zero, Nat.add_zero,
      fromZero.min_rounded_count, Int.toNat_of_nonneg fromZero.nonneg] at sum
    exact Binary64.eq_iff.mpr ⟨number, fromZero.number, sum⟩
  zero_le_inf := by
    have number : (value Scalar.inf).isNaN = false := by
      rw [value_inf]
      rfl
    have atLeast : count (value 0) ≤ count (value Scalar.inf) := by
      rw [value_zero, value_inf]
      exact Int.natCast_nonneg _
    exact Binary64.le_iff.mpr ⟨rfl, number, atLeast⟩
  inf_add {x} nonneg := by
    apply add_of_infinity
    rw [value_inf]
    exact (fromZero_value nonneg).infinity_add.1
  add_inf {x} nonneg := by
    apply add_of_infinity
    rw [value_inf]
    exact (fromZero_value nonneg).infinity_add.2

instance : MeasuredScalar Float where
  finite_zero := by decide +kernel
  isNaN_one := by decide +kernel
  abs_zero_lt_one := by decide +kernel
  isNaN_abs x := by
    rw [← isNaN_value, value_abs, Binary64.isNaN_abs, isNaN_value]

instance : SignedZeroScalar Float where
  zero_ne_neg_zero same := by
    have zeros : UnpackedFloat.zero .positive = .zero .negative := congrArg value same
    cases zeros
  isZero_mul_right {x z} finite zero := by
    obtain ⟨zeroSign, zero⟩ := isZero_iff.mp zero
    obtain ⟨sign, product⟩ := (mul_zero_of_finite finite zeroSign).1
    rw [isZero_iff, value_mul, zero, product]
    exact ⟨sign, repacked_of_representable (a := .zero sign) trivial⟩
  isZero_mul_left {x z} finite zero := by
    obtain ⟨zeroSign, zero⟩ := isZero_iff.mp zero
    obtain ⟨sign, product⟩ := (mul_zero_of_finite finite zeroSign).2
    rw [isZero_iff, value_mul, zero, product]
    exact ⟨sign, repacked_of_representable (a := .zero sign) trivial⟩
  add_of_isZero {x z} zero other := by
    obtain ⟨zeroSign, zero⟩ := isZero_iff.mp zero
    apply value_injective
    have has := representable_value x
    have other : value x ≠ .zero .negative := fun same =>
      other (value_injective (same.trans value_neg_zero.symm))
    rw [value_add, zero]
    cases same : value x with
    | notANumber => exact repacked_of_representable (a := .notANumber) trivial
    | infinity sign => exact repacked_of_representable (a := .infinity sign) trivial
    | zero sign =>
        cases sign with
        | negative => exact absurd same other
        | positive =>
            cases zeroSign <;> exact repacked_of_representable (a := .zero .positive) trivial
    | finite sign m e positive =>
        rw [same] at has
        exact repacked_of_representable has
  neg_zeros_of_add {x y} sum := by
    have values : value (x + y) = .zero .negative := congrArg value sum
    rw [value_add] at values
    obtain ⟨first, second⟩ :=
      zeros_of_repacked_add (representable_value x) (representable_value y) values
    exact ⟨value_injective first, value_injective second⟩

instance : DiscreteScalar Float where
  eq_of_eq {x y} same xOther yOther := by
    rcases eq_or_zeros_of_eq same with same | ⟨s, t, xZero, yZero⟩
    · exact same
    · have xIsZero : x = 0 := eq_zero_of_isZero (isZero_iff.mpr ⟨s, xZero⟩) xOther
      have yIsZero : y = 0 := eq_zero_of_isZero (isZero_iff.mpr ⟨t, yZero⟩) yOther
      exact xIsZero.trans yIsZero.symm

end EchoState
