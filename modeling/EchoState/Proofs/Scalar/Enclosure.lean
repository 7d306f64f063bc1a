import EchoState.Proofs.Binary64.Exact
import EchoState.Proofs.Scalar.Float

/-!
# Enclosures of binary64 results

Bounds on what a binary64 computation gives, computed along with it: the exact bounds of each
operation are widened to multiples of 2^-30, which binary64 has, so they hold of the rounded result
too. A computation whose bounds grow too large, or that may divide by zero, has no enclosure.
-/

namespace EchoState.Binary64

open Float.Model Float.Model.UnpackedFloat

/-- The number that a finite binary64 number is. -/
def amount (x : Float) : ℚ :=
  exact (value x)

theorem isKept_value {x : Float} (finite : Scalar.finite x) : IsKept (value x) := by
  have has := representable_value x
  rcases finite_iff.mp finite with ⟨sign, same⟩ | ⟨sign, m, e, positive, same⟩
  · rw [same]
    trivial
  · rw [same] at has ⊢
    exact has.1

theorem value_sub (x y : Float) :
    value (x - y) = repacked (UnpackedFloat.sub Format.binary64 (value x) (value y)) :=
  rfl

theorem value_div (x y : Float) :
    value (x / y) = repacked (UnpackedFloat.div Format.binary64 (value x) (value y)) :=
  rfl

/-! ## Comparisons and signs -/

theorem le_iff_amount_le {x y : Float} (xFinite : Scalar.finite x) (yFinite : Scalar.finite y) :
    Scalar.le x y ↔ amount x ≤ amount y := by
  have unit : (0 : ℚ) < 2 ^ (1074 : ℤ) := two_zpow_pos 1074
  have counts : count (value x) ≤ count (value y) ↔ amount x ≤ amount y := by
    rw [← Int.cast_le (R := ℚ), count_eq_exact (isKept_value xFinite),
      count_eq_exact (isKept_value yFinite), mul_le_mul_iff_left₀ unit]
    rfl
  rw [le_iff, counts]
  exact ⟨fun both => both.2.2, fun atMost =>
    ⟨Scalar.isNaN_of_finite xFinite, Scalar.isNaN_of_finite yFinite, atMost⟩⟩

theorem lt_iff_amount_lt {x y : Float} (xFinite : Scalar.finite x) (yFinite : Scalar.finite y) :
    Scalar.lt x y ↔ amount x < amount y := by
  rw [OrderedScalar.lt_iff, le_iff_amount_le xFinite yFinite, le_iff_amount_le yFinite xFinite,
    lt_iff_le_not_ge]

theorem abs_exact_finite (sign : Sign) {m : Nat} (e : Int) (positive : 0 < m) :
    |exact (.finite sign m e positive)| = m * 2 ^ e := by
  have nonneg : (0 : ℚ) ≤ m * 2 ^ e := mul_nonneg (Nat.cast_nonneg m) (two_zpow_pos e).le
  cases sign with
  | negative => rw [exact, signed, abs_neg, abs_of_nonneg nonneg]
  | positive => rw [exact, signed, abs_of_nonneg nonneg]

theorem exact_abs (a : UnpackedFloat) : exact a.abs = |exact a| := by
  cases a with
  | notANumber => exact abs_zero.symm
  | infinity sign => exact abs_zero.symm
  | zero sign => exact abs_zero.symm
  | finite sign m e positive => exact (abs_exact_finite sign e positive).symm

theorem amount_abs (x : Float) : amount (Scalar.abs x) = |amount x| := by
  unfold amount
  rw [value_abs, exact_abs]

theorem value_neg (x : Float) : value (-x) = (value x).neg := by
  have has := representable_value x
  have negated : Representable (value x).neg := by
    cases same : value x with
    | notANumber => trivial
    | infinity sign => trivial
    | zero sign => trivial
    | finite sign m e positive =>
        rw [same] at has
        exact has
  exact repacked_of_representable negated

theorem amount_neg (x : Float) : amount (-x) = -amount x := by
  unfold amount
  rw [value_neg, exact_neg]

theorem finite_abs {x : Float} (finite : Scalar.finite x) : Scalar.finite (Scalar.abs x) := by
  rw [finite_iff, value_abs]
  rcases finite_iff.mp finite with ⟨sign, same⟩ | ⟨sign, m, e, positive, same⟩
  · rw [same]
    exact Or.inl ⟨_, rfl⟩
  · rw [same]
    exact Or.inr ⟨_, m, e, positive, rfl⟩

theorem finite_neg {x : Float} (finite : Scalar.finite x) : Scalar.finite (-x) := by
  rw [finite_iff, value_neg]
  rcases finite_iff.mp finite with ⟨sign, same⟩ | ⟨sign, m, e, positive, same⟩
  · rw [same]
    exact Or.inl ⟨_, rfl⟩
  · rw [same]
    exact Or.inr ⟨_, m, e, positive, rfl⟩

theorem value_neg_inf : value (-Scalar.inf) = .infinity .negative := by
  rw [value_neg, value_inf]
  rfl

theorem infinite_of_not_finite {x : Float} (number : Scalar.isNaN x = false)
    (notFinite : ¬Scalar.finite x) : x = Scalar.inf ∨ x = -Scalar.inf := by
  rw [← isNaN_value] at number
  rw [finite_iff] at notFinite
  cases same : value x with
  | notANumber =>
      rw [same] at number
      cases number
  | infinity sign =>
      cases sign with
      | positive => exact Or.inl (value_injective (same.trans value_inf.symm))
      | negative => exact Or.inr (value_injective (same.trans value_neg_inf.symm))
  | zero sign => exact absurd (Or.inl ⟨sign, same⟩) notFinite
  | finite sign m e positive => exact absurd (Or.inr ⟨sign, m, e, positive, same⟩) notFinite

theorem abs_eq_inf {x : Float} (number : Scalar.isNaN x = false)
    (notFinite : ¬Scalar.finite (Scalar.abs x)) : Scalar.abs x = Scalar.inf := by
  have number : Scalar.isNaN (Scalar.abs x) = false := (MeasuredScalar.isNaN_abs x).trans number
  rcases infinite_of_not_finite number notFinite with same | same
  · exact same
  · have values : (value x).abs = .infinity .negative := by
      rw [← value_abs, same, value_neg_inf]
    cases unpacked : value x <;> rw [unpacked] at values <;> cases values

theorem amount_zero : amount 0 = 0 := by
  with_unfolding_all decide

theorem zero_le_iff {x : Float} (finite : Scalar.finite x) : Scalar.le 0 x ↔ 0 ≤ amount x :=
  (le_iff_amount_le MeasuredScalar.finite_zero finite).trans
    (iff_of_eq (congrArg (· ≤ amount x) amount_zero))

theorem finite_one : Scalar.finite (1 : Float) = true := by
  with_unfolding_all decide

theorem amount_one : amount 1 = 1 := by
  with_unfolding_all decide

theorem lt_inf_of_finite {x : Float} (finite : Scalar.finite x) : Scalar.lt x Scalar.inf := by
  have number := Scalar.isNaN_of_finite finite
  have infNumber := (OrderedScalar.numbers_of_le (AdditiveScalar.zero_le_inf (α := Float))).2
  have has := representable_value x
  refine lt_iff.mpr ⟨number, infNumber, ?_⟩
  rw [value_inf, count_infinity]
  have top := ceiling_pos
  rcases finite_iff.mp finite with ⟨sign, same⟩ | ⟨sign, m, e, positive, same⟩
  · rw [same]
    exact Int.natCast_pos.mpr top
  · rw [same] at has ⊢
    have below := magnitude_lt_ceiling has.1 has.2
    cases sign <;> simp only [count, UnpackedFloat.Sign.apply] <;> omega

theorem finite_of_le {x y : Float} (nonneg : Scalar.le 0 x) (atMost : Scalar.le x y)
    (finite : Scalar.finite y) : Scalar.finite x = true := by
  by_contra notFinite
  rcases infinite_of_not_finite (Scalar.number_of_nonneg nonneg) notFinite with rfl | rfl
  · exact (OrderedScalar.lt_iff.mp (lt_inf_of_finite finite)).2 atMost
  · exact absurd nonneg (by with_unfolding_all decide)

theorem zero_le_abs {x : Float} (number : Scalar.isNaN x = false) : Scalar.le 0 (Scalar.abs x) := by
  by_cases finite : Scalar.finite (Scalar.abs x)
  · rw [zero_le_iff finite, amount_abs]
    exact abs_nonneg _
  · rw [abs_eq_inf number finite]
    exact AdditiveScalar.zero_le_inf

/-! ## Rounded results -/

section Operations

variable {x y : Float} (xFinite : Scalar.finite x) (yFinite : Scalar.finite y)

include xFinite yFinite

theorem rounds_amount_add :
    Rounds (amount x + amount y) (UnpackedFloat.add Format.binary64 (value x) (value y)) :=
  rounds_add (isKept_value xFinite) (isKept_value yFinite)

theorem rounds_amount_sub :
    Rounds (amount x - amount y) (UnpackedFloat.sub Format.binary64 (value x) (value y)) :=
  rounds_sub (isKept_value xFinite) (isKept_value yFinite)

theorem rounds_amount_mul :
    Rounds (amount x * amount y) (UnpackedFloat.mul Format.binary64 (value x) (value y)) :=
  rounds_mul (isKept_value xFinite) (isKept_value yFinite)

theorem rounds_amount_div (notZero : amount y ≠ 0) :
    Rounds (amount x / amount y) (UnpackedFloat.div Format.binary64 (value x) (value y)) :=
  rounds_div (isKept_value xFinite) (isKept_value yFinite) notZero

end Operations

theorem onScale_amount {x : Float} (finite : Scalar.finite x) : OnScale (amount x) := by
  have has := representable_value x
  unfold amount
  rcases finite_iff.mp finite with ⟨sign, same⟩ | ⟨sign, m, e, positive, same⟩
  · rw [same]
    exact onScale_zero
  · rw [same] at has ⊢
    have positiveOn : OnScale (m * 2 ^ e) := by
      refine ⟨m, e, ?_, has.1.least_le, has.2, by rw [Int.cast_natCast]⟩
      rw [Nat.abs_cast]
      exact_mod_cast has.1.significand_lt
    cases sign with
    | negative => exact positiveOn.neg
    | positive => exact positiveOn

/-- The power of two at which the numbers of binary64 end. -/
def limit : ℚ :=
  2 ^ (1024 : ℤ)

theorem OnScale.abs_lt_limit {b : ℚ} (onScale : OnScale b) : |b| < limit := by
  obtain ⟨n, e, small, _, most, rfl⟩ := onScale
  have bits : |(n : ℚ)| < 2 ^ 53 := by exact_mod_cast small
  have unit := two_zpow_pos e
  calc
    |(n : ℚ) * 2 ^ e| = |(n : ℚ)| * 2 ^ e := by rw [abs_mul, abs_of_pos unit]
    _ < 2 ^ 53 * 2 ^ e := mul_lt_mul_of_pos_right bits unit
    _ = 2 ^ (e + (53 : Nat)) := (two_zpow_add e 53).symm
    _ ≤ limit := zpow_le_zpow_right₀ (by norm_num) (by push_cast; omega)

theorem representable_of_isKept {a : UnpackedFloat} (isKept : IsKept a)
    (small : |exact a| < limit) : Representable a := by
  cases a with
  | notANumber => trivial
  | infinity sign => trivial
  | zero sign => trivial
  | finite sign m e positive =>
      refine ⟨isKept, ?_⟩
      by_contra large
      have bits : (2 : ℚ) ^ 52 ≤ m := by
        exact_mod_cast isKept.normal.resolve_right (by omega)
      have reaches : limit ≤ m * 2 ^ e := by
        calc
          limit ≤ 2 ^ (e + (52 : Nat)) := zpow_le_zpow_right₀ (by norm_num) (by push_cast; omega)
          _ = 2 ^ 52 * 2 ^ e := two_zpow_add e 52
          _ ≤ m * 2 ^ e := mul_le_mul_of_nonneg_right bits (two_zpow_pos e).le
      rw [abs_exact_finite] at small
      exact absurd small (not_lt.mpr reaches)

structure Interval where
  lower : ℚ
  upper : ℚ

/-- The number is finite and within the bounds, if there are any. -/
def Within (x : Float) : Option Interval → Prop
  | none => True
  | some bounds => Scalar.finite x = true ∧ bounds.lower ≤ amount x ∧ amount x ≤ bounds.upper

/-- Bounds that binary64 has hold of a rounded result when they hold of the exact one. -/
theorem within_of_rounds {x : Float} {a : UnpackedFloat} (same : value x = repacked a) {w : ℚ}
    (rounds : Rounds w a) {lower upper : ℚ} (lowerOn : OnScale lower) (upperOn : OnScale upper)
    (above : lower ≤ w) (below : w ≤ upper) : Within x (some ⟨lower, upper⟩) := by
  have atLeast := rounds.ge lowerOn above
  have atMost := rounds.le upperOn below
  have lowest := (abs_lt.mp lowerOn.abs_lt_limit).1
  have largest := (abs_lt.mp upperOn.abs_lt_limit).2
  have small : |exact a| < limit :=
    abs_lt.mpr ⟨lt_of_lt_of_le lowest atLeast, lt_of_le_of_lt atMost largest⟩
  have has := representable_of_isKept rounds.kept small
  rw [repacked_of_representable has] at same
  have amount_eq : amount x = exact a := congrArg exact same
  refine ⟨?_, atLeast.trans_eq amount_eq.symm, amount_eq.trans_le atMost⟩
  have isKept := rounds.kept
  rw [finite_iff, same]
  cases a with
  | notANumber => cases isKept
  | infinity sign => cases isKept
  | zero sign => exact Or.inl ⟨sign, rfl⟩
  | finite sign m e positive => exact Or.inr ⟨sign, m, e, positive, rfl⟩

theorem number_of_rounds {x : Float} {a : UnpackedFloat} (same : value x = repacked a) {w : ℚ}
    (rounds : Rounds w a) : Scalar.isNaN x = false ∧ (0 ≤ w → Scalar.le 0 x) := by
  have above := rounds.ge onScale_zero
  have isKept := rounds.kept
  rw [le_iff, value_zero, ← isNaN_value x, same]
  cases a with
  | notANumber => cases isKept
  | infinity sign => cases isKept
  | zero sign =>
      rw [repacked_of_representable (a := .zero sign) trivial]
      exact ⟨rfl, fun _ => ⟨rfl, rfl, le_refl _⟩⟩
  | finite sign m e positive =>
      have size : (0 : ℚ) < m * 2 ^ e := mul_pos (Nat.cast_pos.mpr positive) (two_zpow_pos e)
      unfold repacked
      rw [unpack_pack_finite sign positive isKept]
      cases sign with
      | negative =>
          have below (nonneg : 0 ≤ w) : False :=
            absurd (above nonneg) (not_le.mpr (neg_lt_zero.mpr size))
          split <;> exact ⟨rfl, fun nonneg => (below nonneg).elim⟩
      | positive => split <;> exact ⟨rfl, fun _ => ⟨rfl, rfl, Int.natCast_nonneg _⟩⟩

theorem isNaN_sub {x y : Float} (xFinite : Scalar.finite x) (yFinite : Scalar.finite y) :
    Scalar.isNaN (x - y) = false :=
  (number_of_rounds (value_sub x y) (rounds_amount_sub xFinite yFinite)).1

theorem amount_eq_of_rounds {x : Float} {a : UnpackedFloat} (same : value x = repacked a) {w : ℚ}
    (rounds : Rounds w a) (finite : Scalar.finite x) : amount x = exact a := by
  have isKept := rounds.kept
  have number := isKept_value finite
  unfold amount
  rw [same] at number ⊢
  cases a with
  | notANumber => cases isKept
  | infinity sign => cases isKept
  | zero sign => rw [repacked_of_representable (a := .zero sign) trivial]
  | finite sign m e positive =>
      unfold repacked at number ⊢
      rw [unpack_pack_finite sign positive isKept] at number ⊢
      split at number
      · rw [if_pos (by assumption)]
      · cases number

/-- A finite result below a number that binary64 has comes from an exact one below it. -/
theorem lt_of_amount_lt {x : Float} {a : UnpackedFloat} (same : value x = repacked a) {w : ℚ}
    (rounds : Rounds w a) (finite : Scalar.finite x) {b : ℚ} (onScale : OnScale b)
    (below : amount x < b) : w < b := by
  rw [amount_eq_of_rounds same rounds finite] at below
  by_contra notBelow
  exact absurd (rounds.ge onScale (not_lt.mp notBelow)) (not_le.mpr below)

theorem lt_of_lt_amount {x : Float} {a : UnpackedFloat} (same : value x = repacked a) {w : ℚ}
    (rounds : Rounds w a) (finite : Scalar.finite x) {b : ℚ} (onScale : OnScale b)
    (above : b < amount x) : b < w := by
  rw [amount_eq_of_rounds same rounds finite] at above
  by_contra notAbove
  exact absurd (rounds.le onScale (not_lt.mp notAbove)) (not_le.mpr above)

namespace Interval

/-- The exact bounds, widened to multiples of 2^-30 unless they are too large. -/
def outward (lower upper : ℚ) : Option Interval :=
  let down := ⌊lower * 2 ^ 30⌋
  let up := ⌈upper * 2 ^ 30⌉
  if |down| < 2 ^ 53 ∧ |up| < 2 ^ 53 then some ⟨down / 2 ^ 30, up / 2 ^ 30⟩ else none

def ofConstant (c : Float) : Option Interval :=
  match value c with
  | .zero _ => outward 0 0
  | .finite sign m e _ =>
      let size : ℚ := mkRat (m * 2 ^ e.toNat) (2 ^ (-e).toNat)
      outward (signed sign size) (signed sign size)
  | _ => none

def add (first second : Option Interval) : Option Interval := do
  let a ← first
  let b ← second
  outward (a.lower + b.lower) (a.upper + b.upper)

def sub (first second : Option Interval) : Option Interval := do
  let a ← first
  let b ← second
  outward (a.lower - b.upper) (a.upper - b.lower)

/-- The bounds of the products of bounded numbers, from the products of the bounds. -/
def hull (a b : Interval) : Option Interval :=
  outward
    (min (min (a.lower * b.lower) (a.lower * b.upper))
      (min (a.upper * b.lower) (a.upper * b.upper)))
    (max (max (a.lower * b.lower) (a.lower * b.upper))
      (max (a.upper * b.lower) (a.upper * b.upper)))

def mul (first second : Option Interval) : Option Interval := do
  hull (← first) (← second)

def div (first second : Option Interval) : Option Interval := do
  let a ← first
  let b ← second
  if 0 < b.lower then hull a ⟨b.upper⁻¹, b.lower⁻¹⟩ else none

def inside (computed : Option Interval) (given : Interval) : Bool :=
  computed.any fun bounds => given.lower ≤ bounds.lower && bounds.upper ≤ given.upper

end Interval

theorem onScale_div {n : ℤ} (small : |n| < 2 ^ 53) : OnScale (n / 2 ^ 30) := by
  refine ⟨n, -30, small, by norm_num, by norm_num, ?_⟩
  rw [zpow_neg, div_eq_mul_inv]
  norm_num

/-- Widened bounds of the exact result hold of the rounded one. -/
theorem within_outward {x : Float} {a : UnpackedFloat} (same : value x = repacked a) {w : ℚ}
    (rounds : Rounds w a) {lower upper : ℚ} (above : lower ≤ w) (below : w ≤ upper) :
    Within x (Interval.outward lower upper) := by
  unfold Interval.outward
  dsimp only
  split
  · rename_i small
    have down : ((⌊lower * 2 ^ 30⌋ : ℤ) : ℚ) / 2 ^ 30 ≤ w := by
      rw [div_le_iff₀ (by norm_num)]
      have := Int.floor_le (lower * 2 ^ 30)
      linarith
    have up : w ≤ ((⌈upper * 2 ^ 30⌉ : ℤ) : ℚ) / 2 ^ 30 := by
      rw [le_div_iff₀ (by norm_num)]
      have := Int.le_ceil (upper * 2 ^ 30)
      linarith
    exact within_of_rounds same rounds (onScale_div small.1) (onScale_div small.2) down up
  · trivial

theorem mkRat_eq_size (m : Nat) (e : ℤ) :
    mkRat (m * 2 ^ e.toNat) (2 ^ (-e).toNat) = m * 2 ^ e := by
  rw [Rat.mkRat_eq_div]
  rcases Int.le_total 0 e with nonneg | nonpos
  · obtain ⟨count, rfl⟩ := Int.eq_ofNat_of_zero_le nonneg
    simp
  · obtain ⟨count, rfl⟩ := Int.exists_eq_neg_ofNat nonpos
    simp [div_eq_mul_inv]

namespace Within

variable {x y : Float} {first second : Option Interval}

protected theorem add (xWithin : Within x first) (yWithin : Within y second) :
    Within (x + y) (Interval.add first second) := by
  cases first with
  | none => trivial
  | some a =>
      cases second with
      | none => trivial
      | some b =>
          obtain ⟨xFinite, xLower, xUpper⟩ := xWithin
          obtain ⟨yFinite, yLower, yUpper⟩ := yWithin
          have rounds := rounds_amount_add xFinite yFinite
          exact within_outward (value_add x y) rounds (add_le_add xLower yLower)
            (add_le_add xUpper yUpper)

protected theorem sub (xWithin : Within x first) (yWithin : Within y second) :
    Within (x - y) (Interval.sub first second) := by
  cases first with
  | none => trivial
  | some a =>
      cases second with
      | none => trivial
      | some b =>
          obtain ⟨xFinite, xLower, xUpper⟩ := xWithin
          obtain ⟨yFinite, yLower, yUpper⟩ := yWithin
          have rounds := rounds_amount_sub xFinite yFinite
          exact within_outward (value_sub x y) rounds (sub_le_sub xLower yUpper)
            (sub_le_sub xUpper yLower)

/-- A product of bounded numbers lies between the products of the bounds. -/
theorem corners {a b c d p q : ℚ} (ap : a ≤ p) (pb : p ≤ b) (cq : c ≤ q) (qd : q ≤ d) :
    min (min (a * c) (a * d)) (min (b * c) (b * d)) ≤ p * q ∧
      p * q ≤ max (max (a * c) (a * d)) (max (b * c) (b * d)) := by
  -- the product is monotone or antitone in each factor, so it is largest and smallest at corners
  have first (t : ℚ) : min (a * t) (b * t) ≤ p * t ∧ p * t ≤ max (a * t) (b * t) := by
    rcases le_total 0 t with nonneg | nonpos
    · exact ⟨min_le_of_left_le (mul_le_mul_of_nonneg_right ap nonneg),
        le_max_of_le_right (mul_le_mul_of_nonneg_right pb nonneg)⟩
    · exact ⟨min_le_of_right_le (mul_le_mul_of_nonpos_right pb nonpos),
        le_max_of_le_left (mul_le_mul_of_nonpos_right ap nonpos)⟩
  have second (t : ℚ) : min (t * c) (t * d) ≤ t * q ∧ t * q ≤ max (t * c) (t * d) := by
    rcases le_total 0 t with nonneg | nonpos
    · exact ⟨min_le_of_left_le (mul_le_mul_of_nonneg_left cq nonneg),
        le_max_of_le_right (mul_le_mul_of_nonneg_left qd nonneg)⟩
    · exact ⟨min_le_of_right_le (mul_le_mul_of_nonpos_left qd nonpos),
        le_max_of_le_left (mul_le_mul_of_nonpos_left cq nonpos)⟩
  constructor
  · exact le_trans (min_le_min (second a).1 (second b).1) (first q).1
  · exact le_trans (first q).2 (max_le_max (second a).2 (second b).2)

protected theorem mul (xWithin : Within x first) (yWithin : Within y second) :
    Within (x * y) (Interval.mul first second) := by
  cases first with
  | none => trivial
  | some a =>
      cases second with
      | none => trivial
      | some b =>
          obtain ⟨xFinite, xLower, xUpper⟩ := xWithin
          obtain ⟨yFinite, yLower, yUpper⟩ := yWithin
          have rounds := rounds_amount_mul xFinite yFinite
          obtain ⟨above, below⟩ := corners xLower xUpper yLower yUpper
          exact within_outward (value_mul x y) rounds above below

protected theorem div (xWithin : Within x first) (yWithin : Within y second) :
    Within (x / y) (Interval.div first second) := by
  cases first with
  | none => trivial
  | some a =>
      cases second with
      | none => trivial
      | some b =>
          by_cases positive : 0 < b.lower
          · obtain ⟨xFinite, xLower, xUpper⟩ := xWithin
            obtain ⟨yFinite, yLower, yUpper⟩ := yWithin
            have divisor : 0 < amount y := lt_of_lt_of_le positive yLower
            have rounds := rounds_amount_div xFinite yFinite divisor.ne'
            have inverse : (b.upper)⁻¹ ≤ (amount y)⁻¹ ∧ (amount y)⁻¹ ≤ (b.lower)⁻¹ :=
              ⟨inv_anti₀ divisor yUpper, inv_anti₀ positive yLower⟩
            obtain ⟨above, below⟩ := corners xLower xUpper inverse.1 inverse.2
            have bounds : Interval.div (some a) (some b) =
                Interval.hull a ⟨b.upper⁻¹, b.lower⁻¹⟩ := if_pos positive
            rw [bounds]
            refine within_outward (value_div x y) rounds ?_ ?_
            · rw [div_eq_mul_inv]
              exact above
            · rw [div_eq_mul_inv]
              exact below
          · have none : Interval.div (some a) (some b) = none := if_neg positive
            rw [none]
            trivial

theorem constant (c : Float) : Within c (Interval.ofConstant c) := by
  unfold Interval.ofConstant
  have has := representable_value c
  have unpacked : value c = repacked (value c) := (repacked_of_representable has).symm
  cases same : value c with
  | notANumber => trivial
  | infinity sign => trivial
  | zero sign =>
      rw [same] at unpacked
      exact within_outward (same.trans unpacked) (rounds_zero sign) (le_refl 0) (le_refl 0)
  | finite sign m e positive =>
      rw [same] at has unpacked
      dsimp only
      rw [mkRat_eq_size]
      exact within_outward (same.trans unpacked) (rounds_exact has.1) (le_refl _) (le_refl _)

theorem of_inside {given : Interval} (xWithin : Within x first)
    (fits : Interval.inside first given = true) : Within x (some given) := by
  cases first with
  | none => cases fits
  | some bounds =>
      obtain ⟨finite, above, below⟩ := xWithin
      have fits : given.lower ≤ bounds.lower ∧ bounds.upper ≤ given.upper := by
        simpa [Interval.inside] using fits
      exact ⟨finite, le_trans fits.1 above, le_trans below fits.2⟩

end Within

end EchoState.Binary64
