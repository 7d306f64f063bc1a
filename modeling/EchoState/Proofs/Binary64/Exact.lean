import EchoState.Proofs.Binary64.Rounding

/-!
# Exact results and their rounding

A sum, a difference, a product or a quotient of finite values has an exact rational result. The
value that binary64 has for it lies on the same side of every binary64 number as the exact result
does, so bounds that binary64 has itself survive the rounding.
-/

namespace EchoState.Binary64

open Float.Model Float.Model.UnpackedFloat

def signed : Sign → ℚ → ℚ
  | .negative, q => -q
  | .positive, q => q

/-- The number that a finite value stands for, and zero for all other values. -/
def exact : UnpackedFloat → ℚ
  | .finite sign m e _ => signed sign (m * 2 ^ e)
  | _ => 0

/-- The number is one that binary64 has. -/
def OnScale (b : ℚ) : Prop :=
  ∃ n e : ℤ, |n| < 2 ^ 53 ∧ -1074 ≤ e ∧ e ≤ 971 ∧ b = n * 2 ^ e

theorem OnScale.neg {b : ℚ} (onScale : OnScale b) : OnScale (-b) := by
  obtain ⟨n, e, small, least, most, rfl⟩ := onScale
  exact ⟨-n, e, by rwa [abs_neg], least, most, by push_cast; ring⟩

theorem onScale_natCast {n : Nat} (small : n < 2 ^ 53) : OnScale n := by
  refine ⟨n, 0, ?_, by norm_num, by norm_num, by simp⟩
  rw [Nat.abs_cast]
  exact_mod_cast small

theorem onScale_zero : OnScale 0 := by
  simpa using onScale_natCast (n := 0) (by norm_num)

theorem exact_zero (sign : Sign) : exact (.zero sign) = 0 :=
  rfl

theorem exact_neg (a : UnpackedFloat) : exact a.neg = -exact a := by
  cases a with
  | finite sign m e positive =>
      cases sign with
      | negative => exact (neg_neg _).symm
      | positive => rfl
  | notANumber => simp [UnpackedFloat.neg, exact]
  | infinity sign => simp [UnpackedFloat.neg, exact]
  | zero sign => simp [UnpackedFloat.neg, exact]

/-! ## Cutting off -/

/-- A significand with its residual bits is what a number has before its unit, and tells whether
there is anything behind it. -/
structure Cut (q : ℚ) (kept : ExtendedMantissa) : Prop where
  le : (kept.mantissa : ℚ) ≤ q
  lt : q < kept.mantissa + 1
  whole_iff : q = kept.mantissa ↔ kept.roundBit = false ∧ kept.stickyBit = false

namespace Cut

theorem whole (m : Nat) : Cut m (.ofMantissaAndAccuracy m .exact) where
  le := le_refl _
  lt := lt_add_one _
  whole_iff := by simp [ExtendedMantissa.ofMantissaAndAccuracy]

theorem shiftRightOne {q : ℚ} {kept : ExtendedMantissa} (cut : Cut q kept) :
    Cut (q / 2) kept.shiftRightOne := by
  obtain ⟨m, roundBit, stickyBit⟩ := kept
  obtain ⟨le, lt, whole_iff⟩ := cut
  dsimp only at le lt whole_iff
  rcases Nat.even_or_odd' m with ⟨half, even | odd⟩
  · subst even
    push_cast at le lt whole_iff
    refine ⟨?_, ?_, ?_⟩
    · simp [ExtendedMantissa.shiftRightOne]
      linarith
    · simp [ExtendedMantissa.shiftRightOne]
      linarith
    · have same : q / 2 = half ↔ q = 2 * half := by constructor <;> intro h <;> linarith
      simp [ExtendedMantissa.shiftRightOne, same, whole_iff]
  · subst odd
    push_cast at le lt whole_iff
    have quotient : (2 * half + 1) / 2 = half := by omega
    refine ⟨?_, ?_, ?_⟩
    · simp [ExtendedMantissa.shiftRightOne, quotient]
      linarith
    · simp [ExtendedMantissa.shiftRightOne, quotient]
      linarith
    · have apart : q / 2 ≠ half := by
        intro same
        linarith
      simp [ExtendedMantissa.shiftRightOne, quotient, apart]

theorem shiftRight {q : ℚ} {kept : ExtendedMantissa} (cut : Cut q kept) (count : Nat) :
    Cut (q / 2 ^ count) (kept >>> count) := by
  induction count with
  | zero =>
      rw [pow_zero, div_one]
      exact cut
  | succ count ih =>
      have once := ih.shiftRightOne
      rwa [div_div, ← pow_succ] at once

theorem le_roundedMantissa {q : ℚ} {kept : ExtendedMantissa} (cut : Cut q kept) {n : Nat}
    (atMost : (n : ℚ) ≤ q) : n ≤ kept.roundedMantissa := by
  have upTo : n ≤ kept.mantissa := by
    have below : (n : ℚ) < kept.mantissa + 1 := lt_of_le_of_lt atMost cut.lt
    exact Nat.lt_succ_iff.mp (by exact_mod_cast below)
  refine Nat.le_trans upTo ?_
  obtain ⟨m, roundBit, stickyBit⟩ := kept
  cases roundBit <;> cases stickyBit <;>
    simp [ExtendedMantissa.roundedMantissa, ExtendedMantissa.accuracy, Accuracy.roundToNearestEven]

theorem roundedMantissa_le {q : ℚ} {kept : ExtendedMantissa} (cut : Cut q kept) {n : Nat}
    (atLeast : q ≤ n) : kept.roundedMantissa ≤ n := by
  obtain ⟨m, roundBit, stickyBit⟩ := kept
  obtain ⟨le, lt, whole_iff⟩ := cut
  dsimp only at le lt whole_iff
  have upTo : m ≤ n := by exact_mod_cast le_trans le atLeast
  by_cases whole : roundBit = false ∧ stickyBit = false
  · obtain ⟨rfl, rfl⟩ := whole
    exact upTo
  · have behind : (m : ℚ) < q := lt_of_le_of_ne le fun same => whole (whole_iff.mp same.symm)
    have next : m + 1 ≤ n := by exact_mod_cast lt_of_lt_of_le behind atLeast
    refine Nat.le_trans ?_ next
    cases roundBit <;> cases stickyBit <;>
      simp [ExtendedMantissa.roundedMantissa, ExtendedMantissa.accuracy,
        Accuracy.roundToNearestEven]
    omega

end Cut

/-! ## Rounding -/

/-- The value is a zero or a number as binary64 keeps it, the largest exponent apart. -/
def IsKept : UnpackedFloat → Prop
  | .zero _ => True
  | .finite _ m e _ => Kept m e
  | _ => False

theorem IsKept.neg {a : UnpackedFloat} (kept : IsKept a) : IsKept a.neg := by
  cases a <;> exact kept

/-- The value is what a number may be rounded to, were there no largest exponent: every number that
binary64 has lies on the same side of both. -/
structure Rounds (w : ℚ) (a : UnpackedFloat) : Prop where
  kept : IsKept a
  le : ∀ {b : ℚ}, OnScale b → w ≤ b → exact a ≤ b
  ge : ∀ {b : ℚ}, OnScale b → b ≤ w → b ≤ exact a

theorem Rounds.neg {w : ℚ} {a : UnpackedFloat} (rounds : Rounds w a) : Rounds (-w) a.neg where
  kept := rounds.kept.neg
  le {b} onScale atMost := by
    have atLeast := rounds.ge onScale.neg (by linarith)
    rw [exact_neg]
    linarith
  ge {b} onScale atLeast := by
    have atMost := rounds.le onScale.neg (by linarith)
    rw [exact_neg]
    linarith

theorem rounds_exact {a : UnpackedFloat} (kept : IsKept a) : Rounds (exact a) a :=
  ⟨kept, fun _ atMost => atMost, fun _ atLeast => atLeast⟩

theorem rounds_zero (sign : Sign) : Rounds 0 (.zero sign) :=
  rounds_exact (a := .zero sign) trivial

theorem two_zpow_pos (e : ℤ) : (0 : ℚ) < 2 ^ e :=
  zpow_pos (by norm_num) e

theorem two_zpow_add (e : ℤ) (count : Nat) : (2 : ℚ) ^ (e + count) = 2 ^ count * 2 ^ e := by
  rw [zpow_add₀ (by norm_num), zpow_natCast, mul_comm]

theorem OnScale.of_nonneg {b : ℚ} (onScale : OnScale b) (nonneg : 0 ≤ b) :
    ∃ (n : Nat) (e : ℤ), n < 2 ^ 53 ∧ -1074 ≤ e ∧ b = n * 2 ^ e := by
  obtain ⟨n, e, small, least, _, rfl⟩ := onScale
  have atLeast : 0 ≤ n := by
    have quotient := nonneg_of_mul_nonneg_left nonneg (two_zpow_pos e)
    exact_mod_cast quotient
  obtain ⟨n, rfl⟩ := Int.eq_ofNat_of_zero_le atLeast
  refine ⟨n, e, ?_, least, rfl⟩
  rw [Nat.abs_cast] at small
  exact_mod_cast small

/-- A number in some unit is a whole number of larger units when it is on the scale, unless it lies
below all numbers that need them. -/
theorem OnScale.whole_or_below {b : ℚ} (onScale : OnScale b) (nonneg : 0 ≤ b) (t : ℤ) :
    (∃ n : Nat, b = n * 2 ^ t) ∨ (-1074 < t ∧ b < 2 ^ 52 * 2 ^ t) := by
  obtain ⟨n, e, small, least, rfl⟩ := onScale.of_nonneg nonneg
  by_cases coarse : t ≤ e
  · obtain ⟨count, rfl⟩ := Int.le.dest coarse
    refine Or.inl ⟨n * 2 ^ count, ?_⟩
    rw [two_zpow_add]
    push_cast
    ring
  · refine Or.inr ⟨by omega, ?_⟩
    obtain ⟨count, rfl⟩ := Int.le.dest (show e + 1 ≤ t by omega)
    have one : (1 : ℚ) ≤ 2 ^ count := one_le_pow₀ (by norm_num)
    have bits : (n : ℚ) < 2 ^ 53 := by exact_mod_cast small
    have positive := two_zpow_pos e
    calc
      (n : ℚ) * 2 ^ e < 2 ^ 53 * 2 ^ e := mul_lt_mul_of_pos_right bits positive
      _ = 2 ^ 52 * (1 * 2 ^ (e + 1)) := by
        rw [zpow_add₀ (by norm_num), zpow_one]
        ring
      _ ≤ 2 ^ 52 * (2 ^ count * 2 ^ (e + 1)) := by gcongr
      _ = 2 ^ 52 * 2 ^ (e + 1 + count) := by rw [two_zpow_add]

/-- Rounding to a whole number of units, where the unit is the least one or the number has fifty-two
places before it. -/
theorem rounds_of_units {q : ℚ} {t : ℤ} {kept : ExtendedMantissa} (cut : Cut q kept)
    (place : t = -1074 ∨ 2 ^ 52 ≤ q) {a : UnpackedFloat} (isKept : IsKept a)
    (same : exact a = kept.roundedMantissa * 2 ^ t) : Rounds (q * 2 ^ t) a := by
  have unit := two_zpow_pos t
  have nonneg : 0 ≤ q := le_trans (Nat.cast_nonneg _) cut.le
  have large (later : -1074 < t) : (2 : ℚ) ^ 52 * 2 ^ t ≤ q * 2 ^ t :=
    mul_le_mul_of_nonneg_right (place.resolve_left (by omega)) unit.le
  refine ⟨isKept, ?_, ?_⟩
  · intro b onScale atMost
    rcases onScale.whole_or_below (le_trans (mul_nonneg nonneg unit.le) atMost) t with
      ⟨n, rfl⟩ | ⟨later, below⟩
    · have units := cut.roundedMantissa_le (le_of_mul_le_mul_right atMost unit)
      rw [same]
      exact mul_le_mul_of_nonneg_right (by exact_mod_cast units) unit.le
    · exact absurd (lt_of_lt_of_le below (large later)) (not_lt.mpr atMost)
  · intro b onScale atLeast
    rw [same]
    by_cases negative : b < 0
    · exact le_trans negative.le (mul_nonneg (Nat.cast_nonneg _) unit.le)
    · rcases onScale.whole_or_below (not_lt.mp negative) t with ⟨n, rfl⟩ | ⟨later, below⟩
      · have units := cut.le_roundedMantissa (le_of_mul_le_mul_right atLeast unit)
        exact mul_le_mul_of_nonneg_right (by exact_mod_cast units) unit.le
      · have normal : 2 ^ 52 ≤ kept.roundedMantissa := by
          apply cut.le_roundedMantissa
          push_cast
          exact place.resolve_left (by omega)
        refine le_trans below.le (mul_le_mul_of_nonneg_right ?_ unit.le)
        exact_mod_cast normal

theorem neg_neg_value (a : UnpackedFloat) : a.neg.neg = a := by
  cases a with
  | notANumber => rfl
  | infinity sign => cases sign <;> rfl
  | zero sign => cases sign <;> rfl
  | finite sign m e positive => cases sign <;> rfl

theorem rounds_of_signed_units (sign : Sign) {q : ℚ} {t : ℤ} {kept : ExtendedMantissa}
    (cut : Cut q kept) (place : t = -1074 ∨ 2 ^ 52 ≤ q) {a : UnpackedFloat} (isKept : IsKept a)
    (same : exact a = signed sign (kept.roundedMantissa * 2 ^ t)) :
    Rounds (signed sign (q * 2 ^ t)) a := by
  cases sign with
  | positive => exact rounds_of_units cut place isKept same
  | negative =>
      have opposite : exact a.neg = kept.roundedMantissa * 2 ^ t := by
        rw [exact_neg, same]
        exact neg_neg _
      have rounds := (rounds_of_units cut place isKept.neg opposite).neg
      rwa [neg_neg_value] at rounds

theorem mantissa_ofMantissaAndAccuracy (m : Nat) (accuracy : Accuracy) :
    (ExtendedMantissa.ofMantissaAndAccuracy m accuracy).mantissa = m := by
  cases accuracy with
  | exact => rfl
  | inexact order => cases order <;> rfl

/-- A number that was rounded to units of the place for its size, as binary64 keeps it. -/
theorem kept_of_rounded (sign : Sign) {n : Nat} {t : ℤ} (least : -1074 ≤ t) (atMost : n ≤ 2 ^ 53)
    (normal : t = -1074 ∨ 2 ^ 52 ≤ n) :
    let last := shiftToTargetExponent Format.binary64 n t .exact
    let a : UnpackedFloat :=
      if notZero : last.1.mantissa = 0 then .zero sign
      else .finite sign last.1.mantissa last.2 (Nat.pos_of_ne_zero notZero)
    IsKept a ∧ exact a = signed sign (n * 2 ^ t) := by
  intro last a
  rcases Nat.lt_or_eq_of_le atMost with fits | carry
  · have lastEq : last = (.ofMantissaAndAccuracy n .exact, t) :=
      shiftToTargetExponent_of_lt fits least
    have mantissa : last.1.mantissa = n := by
      rw [lastEq]
      exact mantissa_ofMantissaAndAccuracy n .exact
    have exponent : last.2 = t := by rw [lastEq]
    by_cases zero : n = 0
    · have isZero : a = .zero sign := dif_pos (mantissa.trans zero)
      rw [isZero, zero]
      refine ⟨trivial, ?_⟩
      cases sign <;> simp [exact, signed]
    · have isFinite : a = .finite sign n t (Nat.pos_of_ne_zero zero) := by
        have notZero : ¬last.1.mantissa = 0 := by rwa [mantissa]
        refine (dif_neg notZero).trans ?_
        simp only [mantissa, exponent]
      rw [isFinite]
      exact ⟨⟨fits, least, normal.symm⟩, rfl⟩
  · obtain ⟨mantissa, exponent⟩ := shiftToTargetExponent_carry least
    have carried : last = shiftToTargetExponent Format.binary64 (2 ^ 53) t .exact := by
      rw [← carry]
    rw [← carried] at mantissa exponent
    have isFinite : a = .finite sign (2 ^ 52) (t + 1) (by decide) := by
      have notZero : ¬last.1.mantissa = 0 := by
        rw [mantissa]
        decide
      refine (dif_neg notZero).trans ?_
      simp only [mantissa, exponent]
    rw [isFinite]
    refine ⟨⟨by decide, by omega, Or.inl (Nat.le_refl _)⟩, ?_⟩
    rw [exact, carry, zpow_add₀ (by norm_num), zpow_one]
    congr 1
    push_cast
    ring

/-- A cut number is rounded to the place for its size when enough of it is there: fifty-two places,
or all down to the least unit. -/
theorem rounds_roundWithAccuracy (sign : Sign) {q : ℚ} {m : Nat} {e : ℤ} {accuracy : Accuracy}
    (cut : Cut q (.ofMantissaAndAccuracy m accuracy)) (enough : 2 ^ 52 ≤ m ∨ e ≤ -1074) :
    Rounds (signed sign (q * 2 ^ e))
      (roundWithAccuracy Format.binary64 sign m e accuracy) := by
  have mantissa := mantissa_ofMantissaAndAccuracy m accuracy
  have low := cut.le
  have high := cut.lt
  rw [mantissa] at low high
  -- the place of the last unit, and the number in that unit
  generalize place_eq : Format.binary64.targetExponent (totalExponent m e) = t
  rw [targetExponent_eq] at place_eq
  have least : -1074 ≤ t := by omega
  have down : e ≤ t := by
    rcases enough with normal | small
    · have places : 52 ≤ m.log2 := (Nat.le_log2 (by omega)).mpr normal
      omega
    · omega
  obtain ⟨count, rfl⟩ := Int.le.dest down
  have cutThere := cut.shiftRight count
  have sameNumber : q / 2 ^ count * 2 ^ (e + count) = q * 2 ^ e := by
    rw [two_zpow_add]
    field_simp
  have positive : (0 : ℚ) < 2 ^ count := by positivity
  have small : q / 2 ^ count ≤ (2 ^ 53 : Nat) := by
    have bits : m + 1 ≤ 2 ^ (53 + count) :=
      Nat.le_trans Nat.lt_log2_self (Nat.pow_le_pow_right (by decide) (by omega))
    have bits : (m : ℚ) + 1 ≤ 2 ^ 53 * 2 ^ count := by
      rw [← pow_add]
      exact_mod_cast bits
    rw [div_le_iff₀ positive]
    push_cast
    linarith
  have place : e + count = -1074 ∨ 2 ^ 52 ≤ q / 2 ^ count := by
    by_cases bottom : e + count = -1074
    · exact Or.inl bottom
    · have places : m.log2 = 52 + count := by omega
      have notZero : m ≠ 0 := by
        rintro rfl
        simp at places
        omega
      have bits := Nat.log2_self_le notZero
      rw [places] at bits
      have bits : (2 : ℚ) ^ 52 * 2 ^ count ≤ m := by
        rw [← pow_add]
        exact_mod_cast bits
      rw [le_div_iff₀ positive]
      exact Or.inr (by linarith)
  have normal : e + count = -1074 ∨
      2 ^ 52 ≤ (ExtendedMantissa.ofMantissaAndAccuracy m accuracy >>> count).roundedMantissa :=
    place.imp_right fun large => cutThere.le_roundedMantissa (by exact_mod_cast large)
  obtain ⟨isKept, same⟩ := kept_of_rounded sign least (cutThere.roundedMantissa_le small) normal
  have rounds := rounds_of_signed_units sign cutThere place isKept same
  rw [sameNumber] at rounds
  have shifted : (e + count - e).toNat = count := by omega
  unfold roundWithAccuracy
  rw [shiftToTargetExponent, targetExponent_eq, place_eq, shiftToExponent, shifted]
  exact rounds

theorem two_zpow_sub (e : ℤ) (count : Nat) : (2 : ℚ) ^ count * 2 ^ (e - count) = 2 ^ e := by
  rw [← two_zpow_add, sub_add_cancel]

theorem rounds_round (sign : Sign) {m : Nat} (e : ℤ) (positive : 0 < m) :
    Rounds (signed sign (m * 2 ^ e)) (UnpackedFloat.round Format.binary64 sign m e) := by
  unfold UnpackedFloat.round decreaseExponent
  rw [targetExponent_eq]
  dsimp only
  generalize count_eq : (e - max (m.log2 + e - 52) (-1074)).toNat = count
  rw [Nat.shiftLeft_eq]
  have enough : 2 ^ 52 ≤ m * 2 ^ count ∨ e - count ≤ -1074 := by
    by_cases normal : -1074 < e - count
    · have places : 52 ≤ m.log2 + count := by omega
      refine Or.inl (Nat.le_trans (Nat.pow_le_pow_right (by decide) places) ?_)
      rw [Nat.pow_add]
      exact Nat.mul_le_mul_right _ (Nat.log2_self_le (Nat.ne_of_gt positive))
    · exact Or.inr (by omega)
  have rounds := rounds_roundWithAccuracy sign (Cut.whole (m * 2 ^ count)) enough
  have same : ((m * 2 ^ count : Nat) : ℚ) * 2 ^ (e - count) = m * 2 ^ e := by
    push_cast
    rw [mul_assoc, two_zpow_sub]
  rwa [same] at rounds

theorem rounds_normalize (n e : ℤ) :
    Rounds (n * 2 ^ e) (UnpackedFloat.normalize Format.binary64 n e .positive) := by
  unfold UnpackedFloat.normalize
  rcases Int.lt_trichotomy n 0 with below | rfl | above
  · rw [Int.compare_eq_lt.mpr below]
    have rounds := rounds_round .negative e (show 0 < (-n).toNat by omega)
    have size : (((-n).toNat : Nat) : ℚ) = -n := by
      exact_mod_cast Int.toNat_of_nonneg (show 0 ≤ -n by omega)
    rw [size, neg_mul] at rounds
    simpa [signed] using rounds
  · rw [Int.compare_eq_eq.mpr rfl]
    simpa using rounds_zero .positive
  · rw [Int.compare_eq_gt.mpr above]
    have rounds := rounds_round .positive e (show 0 < n.toNat by omega)
    have size : ((n.toNat : Nat) : ℚ) = n := by
      exact_mod_cast Int.toNat_of_nonneg (show 0 ≤ n by omega)
    rwa [size] at rounds

theorem count_eq_exact {a : UnpackedFloat} (isKept : IsKept a) :
    (count a : ℚ) = exact a * 2 ^ (1074 : ℤ) := by
  cases a with
  | notANumber => cases isKept
  | infinity sign => cases isKept
  | zero sign => simp [count, exact_zero]
  | finite sign m e positive =>
      have least := isKept.least_le
      have places : (((e + 1074).toNat : Nat) : ℤ) = e + 1074 := by omega
      have size : ((magnitude m e : Nat) : ℚ) = m * 2 ^ e * 2 ^ (1074 : ℤ) := by
        unfold magnitude
        rw [Nat.cast_mul, Nat.cast_pow, Nat.cast_ofNat, ← zpow_natCast, places,
          zpow_add₀ (by norm_num), mul_assoc]
      cases sign with
      | negative =>
          rw [exact, signed, neg_mul, ← size]
          simp [count, Sign.apply]
      | positive =>
          rw [exact, signed, ← size]
          simp [count, Sign.apply]

/-! ## Operations -/

theorem exact_lowered (sign : Sign) {m : Nat} {e low : ℤ} (positive : 0 < m) (atMost : low ≤ e) :
    ((sign.apply ((decreaseExponent m e low).1 : Nat) : ℤ) : ℚ) * 2 ^ low =
      exact (.finite sign m e positive) := by
  obtain ⟨count, rfl⟩ := Int.le.dest atMost
  have shifted : (low + count - low).toNat = count := by omega
  unfold decreaseExponent
  rw [shifted, exact, two_zpow_add]
  dsimp only
  rw [Nat.shiftLeft_eq]
  cases sign with
  | positive =>
      simp only [Sign.apply, signed]
      push_cast
      ring
  | negative =>
      simp only [Sign.apply, signed]
      push_cast
      ring

theorem rounds_add {a b : UnpackedFloat} (aKept : IsKept a) (bKept : IsKept b) :
    Rounds (exact a + exact b) (UnpackedFloat.add Format.binary64 a b) := by
  cases a with
  | notANumber => cases aKept
  | infinity s => cases aKept
  | zero s =>
      rw [exact_zero, zero_add]
      cases b with
      | notANumber => cases bKept
      | infinity t => cases bKept
      | zero t => cases s <;> cases t <;> exact rounds_zero _
      | finite t m e positive => exact rounds_exact bKept
  | finite s m e positive =>
      cases b with
      | notANumber => cases bKept
      | infinity t => cases bKept
      | zero t =>
          rw [exact_zero, add_zero]
          exact rounds_exact aKept
      | finite t m' e' positive' =>
          rw [← exact_lowered s positive (min_le_left e e'),
            ← exact_lowered t positive' (min_le_right e e'), ← add_mul, ← Int.cast_add]
          exact rounds_normalize _ _

theorem apply_neg (sign : Sign) (n : Int) : (-sign).apply n = -sign.apply n := by
  cases sign with
  | negative => exact (Int.neg_neg n).symm
  | positive => rfl

theorem sub_eq_add (a b : UnpackedFloat) :
    UnpackedFloat.sub Format.binary64 a b = UnpackedFloat.add Format.binary64 a b.neg := by
  cases a <;> cases b <;> try rfl
  unfold UnpackedFloat.sub UnpackedFloat.add UnpackedFloat.neg
  dsimp only
  rw [apply_neg, Int.sub_eq_add_neg]

theorem rounds_sub {a b : UnpackedFloat} (aKept : IsKept a) (bKept : IsKept b) :
    Rounds (exact a - exact b) (UnpackedFloat.sub Format.binary64 a b) := by
  rw [sub_eq_add, sub_eq_add_neg, ← exact_neg]
  exact rounds_add aKept bKept.neg

theorem signed_mul (s t : Sign) (p q : ℚ) : signed (s * t) (p * q) = signed s p * signed t q := by
  cases s with
  | negative =>
      cases t with
      | negative => exact (neg_mul_neg p q).symm
      | positive => exact (neg_mul p q).symm
  | positive =>
      cases t with
      | negative => exact (mul_neg p q).symm
      | positive => rfl

theorem signed_div (s t : Sign) (p q : ℚ) : signed (s / t) (p / q) = signed s p / signed t q := by
  cases s with
  | negative =>
      cases t with
      | negative => exact (neg_div_neg_eq p q).symm
      | positive => exact (neg_div q p).symm
  | positive =>
      cases t with
      | negative => exact (div_neg p).symm
      | positive => rfl

theorem Kept.product_enough {m m' : Nat} {e e' : ℤ} (kept : Kept m e) (kept' : Kept m' e')
    (positive : 0 < m) (positive' : 0 < m') : 2 ^ 52 ≤ m * m' ∨ e + e' ≤ -1074 := by
  rcases kept.normal with normal | least
  · exact Or.inl (Nat.le_trans normal (Nat.le_mul_of_pos_right m positive'))
  · rcases kept'.normal with normal' | least'
    · exact Or.inl (Nat.le_trans normal' (Nat.le_mul_of_pos_left m' positive))
    · exact Or.inr (by omega)

theorem rounds_mul {a b : UnpackedFloat} (aKept : IsKept a) (bKept : IsKept b) :
    Rounds (exact a * exact b) (UnpackedFloat.mul Format.binary64 a b) := by
  cases a with
  | notANumber => cases aKept
  | infinity s => cases aKept
  | zero s =>
      rw [exact_zero, zero_mul]
      cases b with
      | notANumber => cases bKept
      | infinity t => cases bKept
      | zero t => exact rounds_zero _
      | finite t m e positive => exact rounds_zero _
  | finite s m e positive =>
      cases b with
      | notANumber => cases bKept
      | infinity t => cases bKept
      | zero t =>
          rw [exact_zero, mul_zero]
          exact rounds_zero _
      | finite t m' e' positive' =>
          have enough := Kept.product_enough aKept bKept positive positive'
          have rounds := rounds_roundWithAccuracy (s * t) (Cut.whole (m * m')) enough
          have same : ((m * m' : Nat) : ℚ) * 2 ^ (e + e') = m * 2 ^ e * (m' * 2 ^ e') := by
            rw [zpow_add₀ (by norm_num)]
            push_cast
            ring
          rwa [same, signed_mul] at rounds

theorem Cut.quotient (m : Nat) {k : Nat} (positive : 0 < k) :
    Cut ((m : ℚ) / k) (.ofMantissaAndAccuracy (m / k) (accuracyOfFraction (m % k) k)) := by
  have divisor : (0 : ℚ) < k := by exact_mod_cast positive
  have parts : (m : ℚ) = k * (m / k : Nat) + (m % k : Nat) := by
    exact_mod_cast (Nat.div_add_mod m k).symm
  have rest : ((m % k : Nat) : ℚ) < k := by exact_mod_cast Nat.mod_lt m positive
  have atLeast : (0 : ℚ) ≤ (m % k : Nat) := Nat.cast_nonneg _
  have whole_iff : (m : ℚ) / k = (m / k : Nat) ↔ m % k = 0 := by
    rw [div_eq_iff divisor.ne', ← Nat.cast_eq_zero (R := ℚ)]
    constructor <;> intro same <;> linarith
  refine ⟨?_, ?_, ?_⟩
  · rw [mantissa_ofMantissaAndAccuracy, le_div_iff₀ divisor]
    linarith
  · rw [mantissa_ofMantissaAndAccuracy, div_lt_iff₀ divisor]
    linarith
  · rw [mantissa_ofMantissaAndAccuracy, whole_iff]
    by_cases none : m % k = 0
    · simp [none, accuracyOfFraction, ExtendedMantissa.ofMantissaAndAccuracy]
    · rw [accuracyOfFraction, if_neg none]
      cases compare (2 * (m % k)) k <;> simp [none, ExtendedMantissa.ofMantissaAndAccuracy]

theorem rounds_div_finite (s t : Sign) {m m' : Nat} (e e' : ℤ) (positive : 0 < m)
    (positive' : 0 < m') :
    Rounds (exact (.finite s m e positive) / exact (.finite t m' e' positive'))
      (UnpackedFloat.div Format.binary64 (.finite s m e positive) (.finite t m' e' positive')) := by
  unfold UnpackedFloat.div divCore
  dsimp only
  have bits : Format.binary64.mantissaBits = 53 := rfl
  have least : Format.binary64.minExponent = -1074 := by decide
  generalize place_eq : min (e - e') (Format.binary64.targetExponent
    (totalExponent m e - totalExponent m' e')) = low
  unfold Format.targetExponent totalExponent at place_eq
  rw [bits, least] at place_eq
  obtain ⟨count, gap⟩ := Int.le.dest (show low ≤ e - e' by omega)
  have shifted : (e - e' - low).toNat = count := by omega
  rw [shifted, Nat.shiftLeft_eq]
  have enough : 2 ^ 52 ≤ m * 2 ^ count / m' ∨ low ≤ -1074 := by
    by_cases normal : -1074 < low
    · have places : 53 + m'.log2 ≤ m.log2 + count := by omega
      refine Or.inl ((Nat.le_div_iff_mul_le positive').mpr ?_)
      calc
        2 ^ 52 * m' ≤ 2 ^ 52 * 2 ^ (m'.log2 + 1) := Nat.mul_le_mul_left _ Nat.lt_log2_self.le
        _ = 2 ^ (53 + m'.log2) := by rw [← Nat.pow_add]; congr 1; omega
        _ ≤ 2 ^ (m.log2 + count) := Nat.pow_le_pow_right (by decide) places
        _ = 2 ^ m.log2 * 2 ^ count := Nat.pow_add ..
        _ ≤ m * 2 ^ count := Nat.mul_le_mul_right _ (Nat.log2_self_le (Nat.ne_of_gt positive))
    · exact Or.inr (by omega)
  have rounds := rounds_roundWithAccuracy (s / t) (Cut.quotient (m * 2 ^ count) positive') enough
  have same : ((m * 2 ^ count : Nat) : ℚ) / m' * 2 ^ low = m * 2 ^ e / (m' * 2 ^ e') := by
    have scale : (2 : ℚ) ^ e = 2 ^ count * 2 ^ low * 2 ^ e' := by
      rw [← two_zpow_add, ← zpow_add₀ (by norm_num), gap]
      congr 1
      omega
    have divisor : (m' : ℚ) ≠ 0 := by exact_mod_cast Nat.ne_of_gt positive'
    have unit := (two_zpow_pos e').ne'
    rw [scale]
    push_cast
    field_simp
  rwa [same, signed_div] at rounds

theorem rounds_div {a b : UnpackedFloat} (aKept : IsKept a) (bKept : IsKept b)
    (notZero : exact b ≠ 0) :
    Rounds (exact a / exact b) (UnpackedFloat.div Format.binary64 a b) := by
  cases b with
  | notANumber => cases bKept
  | infinity t => cases bKept
  | zero t => exact absurd rfl notZero
  | finite t m' e' positive' =>
      cases a with
      | notANumber => cases aKept
      | infinity s => cases aKept
      | zero s =>
          rw [exact_zero, zero_div]
          exact rounds_zero _
      | finite s m e positive => exact rounds_div_finite s t e e' positive positive'

end EchoState.Binary64
