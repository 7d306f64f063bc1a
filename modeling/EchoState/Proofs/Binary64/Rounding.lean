import EchoState.Proofs.Binary64.Units

/-!
# Rounding in units

A sum is rounded to the nearest significand of fifty-three places, and of two nearest ones to the
even one. In units this is a monotone function of the exact sum that fixes every value.
-/

namespace EchoState.Binary64

open Float.Model Float.Model.UnpackedFloat

/-- The integer nearest to `n / 2 ^ s`; of two nearest ones, the even one. -/
def nearest (n s : Nat) : Nat :=
  if 2 * (n % 2 ^ s) < 2 ^ s then n / 2 ^ s
  else if 2 * (n % 2 ^ s) = 2 ^ s then n / 2 ^ s + n / 2 ^ s % 2
  else n / 2 ^ s + 1

theorem le_nearest (n s : Nat) : n / 2 ^ s ≤ nearest n s := by
  unfold nearest
  split
  · exact Nat.le_refl _
  · split
    · exact Nat.le_add_right _ _
    · exact Nat.le_succ _

theorem nearest_le (n s : Nat) : nearest n s ≤ n / 2 ^ s + 1 := by
  unfold nearest
  split
  · exact Nat.le_succ _
  · split
    · omega
    · exact Nat.le_refl _

@[simp]
theorem nearest_zero_places (n : Nat) : nearest n 0 = n := by
  simp [nearest, Nat.mod_one]

theorem nearest_mono (s : Nat) {n n' : Nat} (atMost : n ≤ n') : nearest n s ≤ nearest n' s := by
  have quotients : n / 2 ^ s ≤ n' / 2 ^ s := Nat.div_le_div_right atMost
  rcases Nat.lt_or_eq_of_le quotients with less | same
  · calc
      nearest n s ≤ n / 2 ^ s + 1 := nearest_le n s
      _ ≤ n' / 2 ^ s := less
      _ ≤ nearest n' s := le_nearest n' s
  · have left := Nat.div_add_mod n (2 ^ s)
    have right := Nat.div_add_mod n' (2 ^ s)
    rw [same] at left
    have remainders : n % 2 ^ s ≤ n' % 2 ^ s := by omega
    simp only [nearest, same]
    grind

theorem nearest_le_of_log {n s : Nat} (log : n.log2 + 1 ≤ 53 + s) : nearest n s ≤ 2 ^ 53 := by
  have quotient : n / 2 ^ s < 2 ^ 53 := by
    rw [Nat.div_lt_iff_lt_mul (Nat.two_pow_pos _), ← Nat.pow_add]
    exact Nat.lt_of_lt_of_le Nat.lt_log2_self (Nat.pow_le_pow_right (by decide) log)
  exact Nat.le_trans (nearest_le n s) quotient

theorem le_nearest_of_log {n s : Nat} (positive : n ≠ 0) (log : n.log2 = 52 + s) :
    2 ^ 52 ≤ nearest n s := by
  have quotient : 2 ^ 52 ≤ n / 2 ^ s := by
    rw [Nat.le_div_iff_mul_le (Nat.two_pow_pos _), ← Nat.pow_add, ← log]
    exact Nat.log2_self_le positive
  exact Nat.le_trans quotient (le_nearest n s)

theorem nearest_mul_two_pow (n s u : Nat) : nearest (n * 2 ^ u) (s + u) = nearest n s := by
  have quotient : n * 2 ^ u / 2 ^ (s + u) = n / 2 ^ s := by
    rw [Nat.pow_add]
    exact Nat.mul_div_mul_right n (2 ^ s) (Nat.two_pow_pos u)
  have remainder : n * 2 ^ u % 2 ^ (s + u) = n % 2 ^ s * 2 ^ u := by
    rw [Nat.pow_add]
    exact Nat.mul_mod_mul_right (2 ^ u) n (2 ^ s)
  have below : 2 * (n % 2 ^ s * 2 ^ u) < 2 ^ (s + u) ↔ 2 * (n % 2 ^ s) < 2 ^ s := by
    rw [Nat.pow_add, ← Nat.mul_assoc]
    exact Nat.mul_lt_mul_right (Nat.two_pow_pos u)
  have half : 2 * (n % 2 ^ s * 2 ^ u) = 2 ^ (s + u) ↔ 2 * (n % 2 ^ s) = 2 ^ s := by
    rw [Nat.pow_add, ← Nat.mul_assoc]
    exact Nat.mul_left_inj (Nat.ne_of_gt (Nat.two_pow_pos u))
  simp only [nearest, quotient, remainder, below, half]

/-- What is left of a significand after dropping `s` binary places. -/
structure Dropped (m s : Nat) (kept : ExtendedMantissa) : Prop where
  mantissa_eq : kept.mantissa = m / 2 ^ s
  roundBit_iff : kept.roundBit = true ↔ 2 ^ s ≤ 2 * (m % 2 ^ s)
  stickyBit_iff : kept.stickyBit = true ↔ 2 * (m % 2 ^ s) % 2 ^ s ≠ 0

namespace Dropped

theorem none_dropped (m : Nat) : Dropped m 0 (.ofMantissaAndAccuracy m .exact) where
  mantissa_eq := by simp [ExtendedMantissa.ofMantissaAndAccuracy]
  roundBit_iff := by simp [ExtendedMantissa.ofMantissaAndAccuracy, Nat.mod_one]
  stickyBit_iff := by simp [ExtendedMantissa.ofMantissaAndAccuracy, Nat.mod_one]

theorem one_more {m s : Nat} {kept : ExtendedMantissa} (dropped : Dropped m s kept) :
    Dropped m (s + 1) kept.shiftRightOne where
  mantissa_eq := by
    show kept.mantissa / 2 = _
    rw [dropped.mantissa_eq, Nat.div_div_eq_div_mul, Nat.pow_succ]
  roundBit_iff := by
    show (kept.mantissa % 2 != 0) = true ↔ _
    have positive := Nat.two_pow_pos s
    have rest := Nat.mod_lt m positive
    rw [dropped.mantissa_eq, Nat.mod_pow_succ, Nat.pow_succ, bne_iff_ne]
    rcases Nat.mod_two_eq_zero_or_one (m / 2 ^ s) with even | odd
    · rw [even]
      omega
    · rw [odd]
      omega
  stickyBit_iff := by
    show (kept.roundBit || kept.stickyBit) = true ↔ _
    have positive := Nat.two_pow_pos s
    have rest := Nat.mod_lt m positive
    have remainder : 2 * (m % 2 ^ (s + 1)) % 2 ^ (s + 1) = 2 * (m % 2 ^ s) := by
      rw [@Nat.mod_pow_succ m 2 s, Nat.pow_succ', Nat.mul_mod_mul_left,
        Nat.add_mul_mod_self_left, Nat.mod_eq_of_lt rest]
    rw [remainder, Bool.or_eq_true, dropped.roundBit_iff, dropped.stickyBit_iff]
    constructor
    · rintro (large | left)
      · omega
      · intro none
        rw [none] at left
        simp at left
    · intro some
      by_cases large : 2 ^ s ≤ 2 * (m % 2 ^ s)
      · exact Or.inl large
      · rw [Nat.mod_eq_of_lt (Nat.lt_of_not_le large)]
        exact Or.inr some

theorem shiftRight (m s : Nat) :
    Dropped m s (ExtendedMantissa.ofMantissaAndAccuracy m .exact >>> s) := by
  induction s with
  | zero => exact none_dropped m
  | succ s ih => exact one_more ih

theorem roundedMantissa_eq {m s : Nat} {kept : ExtendedMantissa} (dropped : Dropped m s kept) :
    kept.roundedMantissa = nearest m s := by
  obtain ⟨mantissa, roundBit, stickyBit⟩ := kept
  obtain ⟨mantissa_eq, roundBit_iff, stickyBit_iff⟩ := dropped
  dsimp only at mantissa_eq roundBit_iff stickyBit_iff
  have rest := Nat.mod_lt m (Nat.two_pow_pos s)
  subst mantissa_eq
  unfold nearest
  cases roundBit with
  | false =>
      have below : 2 * (m % 2 ^ s) < 2 ^ s := by
        rw [← Nat.not_le, ← roundBit_iff]
        decide
      rw [if_pos below]
      cases stickyBit <;> rfl
  | true =>
      have atLeast := roundBit_iff.mp rfl
      rw [if_neg (Nat.not_lt.mpr atLeast)]
      have beyond : 2 * (m % 2 ^ s) % 2 ^ s = 2 * (m % 2 ^ s) - 2 ^ s := by
        rw [Nat.mod_eq_sub_mod atLeast]
        exact Nat.mod_eq_of_lt (by omega)
      rw [beyond] at stickyBit_iff
      cases stickyBit with
      | false =>
          have half : 2 * (m % 2 ^ s) = 2 ^ s := by
            have none : ¬2 * (m % 2 ^ s) - 2 ^ s ≠ 0 := by
              rw [← stickyBit_iff]
              decide
            omega
          rw [if_pos half]
          rfl
      | true =>
          have some := stickyBit_iff.mp rfl
          rw [if_neg (by omega)]
          rfl

end Dropped

/-- The number of places that a count has beyond the fifty-three of a significand. -/
def excess (n : Nat) : Nat :=
  n.log2 - 52

/-- A count rounded to a significand of fifty-three places. -/
def rounded (n : Nat) : Nat :=
  nearest n (excess n) * 2 ^ excess n

theorem log2_mul_two_pow {m : Nat} (positive : 0 < m) (u : Nat) :
    (m * 2 ^ u).log2 = m.log2 + u := by
  have scaled : m * 2 ^ u ≠ 0 := Nat.ne_of_gt (Nat.mul_pos positive (Nat.two_pow_pos u))
  rw [Nat.log2_eq_iff scaled]
  constructor
  · rw [Nat.pow_add]
    exact Nat.mul_le_mul_right _ (Nat.log2_self_le (Nat.ne_of_gt positive))
  · rw [show m.log2 + u + 1 = m.log2 + 1 + u by omega, Nat.pow_add]
    exact Nat.mul_lt_mul_of_pos_right Nat.lt_log2_self (Nat.two_pow_pos u)

theorem log2_mono {n n' : Nat} (atMost : n ≤ n') : n.log2 ≤ n'.log2 := by
  by_cases zero : n = 0
  · rw [zero, Nat.log2_zero]
    exact Nat.zero_le _
  · rw [Nat.le_log2 (by omega)]
    exact Nat.le_trans (Nat.log2_self_le zero) atMost

theorem nearest_excess_le (n : Nat) : nearest n (excess n) ≤ 2 ^ 53 := by
  apply nearest_le_of_log
  unfold excess
  omega

theorem le_nearest_excess {n : Nat} (some : 0 < excess n) : 2 ^ 52 ≤ nearest n (excess n) := by
  have positive : n ≠ 0 := by
    rintro rfl
    simp [excess] at some
  apply le_nearest_of_log positive
  unfold excess at some ⊢
  omega

theorem nearest_excess_pos {n : Nat} (positive : 0 < n) : 0 < nearest n (excess n) := by
  rcases Nat.eq_zero_or_pos (excess n) with none | some
  · rw [none, nearest_zero_places]
    exact positive
  · exact Nat.lt_of_lt_of_le (by decide) (le_nearest_excess some)

theorem rounded_mono {n n' : Nat} (atMost : n ≤ n') : rounded n ≤ rounded n' := by
  have excesses : excess n ≤ excess n' := Nat.sub_le_sub_right (log2_mono atMost) 52
  rcases Nat.lt_or_eq_of_le excesses with less | same
  · calc
      rounded n ≤ 2 ^ 53 * 2 ^ excess n := Nat.mul_le_mul_right _ (nearest_excess_le n)
      _ = 2 ^ (53 + excess n) := (Nat.pow_add ..).symm
      _ ≤ 2 ^ (52 + excess n') := Nat.pow_le_pow_right (by decide) (by omega)
      _ = 2 ^ 52 * 2 ^ excess n' := Nat.pow_add ..
      _ ≤ rounded n' :=
        Nat.mul_le_mul_right _ (le_nearest_excess (Nat.lt_of_le_of_lt (Nat.zero_le _) less))
  · unfold rounded
    rw [same]
    exact Nat.mul_le_mul_right _ (nearest_mono _ atMost)

theorem rounded_magnitude {m : Nat} {e : Int} (positive : 0 < m) (kept : Kept m e) :
    rounded (magnitude m e) = magnitude m e := by
  have log := log2_mul_two_pow positive (e + 1074).toNat
  have places : excess (magnitude m e) = (e + 1074).toNat := by
    unfold excess magnitude
    rw [log]
    rcases kept.normal with normal | bottom
    · have exact52 : m.log2 = 52 :=
        (Nat.log2_eq_iff (Nat.ne_of_gt positive)).mpr ⟨normal, kept.significand_lt⟩
      omega
    · have most : m.log2 < 53 := (Nat.log2_lt (Nat.ne_of_gt positive)).mpr kept.significand_lt
      omega
  unfold rounded
  rw [places]
  have whole := nearest_mul_two_pow m 0 (e + 1074).toNat
  rw [Nat.zero_add, nearest_zero_places] at whole
  unfold magnitude
  rw [whole]

theorem targetExponent_eq (m : Nat) (e : Int) :
    Format.binary64.targetExponent (totalExponent m e) = max (m.log2 + e - 52) (-1074) := by
  have bits : Format.binary64.mantissaBits = 53 := rfl
  have least : Format.binary64.minExponent = -1074 := by decide
  unfold Format.targetExponent totalExponent
  rw [bits, least]
  congr 1
  omega

theorem targetExponent_of_least_le {m : Nat} {e : Int} (positive : 0 < m) (least : -1074 ≤ e) :
    Format.binary64.targetExponent (totalExponent m e) = excess (magnitude m e) - 1074 := by
  rw [targetExponent_eq]
  unfold excess magnitude
  rw [log2_mul_two_pow positive]
  omega

/-- A significand that fits is left where it is. -/
theorem shiftToTargetExponent_of_lt {m : Nat} {e : Int} (fits : m < 2 ^ 53) (least : -1074 ≤ e) :
    shiftToTargetExponent Format.binary64 m e .exact =
      (.ofMantissaAndAccuracy m .exact, e) := by
  have log : m.log2 ≤ 52 := by
    by_cases zero : m = 0
    · simp [zero]
    · exact Nat.le_of_lt_succ ((Nat.log2_lt zero).mpr fits)
  have stays : (Format.binary64.targetExponent (totalExponent m e) - e).toNat = 0 := by
    rw [targetExponent_eq]
    omega
  unfold shiftToTargetExponent shiftToExponent
  dsimp only
  rw [stays]
  simp
  rfl

/-- A significand that was rounded up to 2^53 is carried into the next place. -/
theorem shiftToTargetExponent_carry {e : Int} (least : -1074 ≤ e) :
    (shiftToTargetExponent Format.binary64 (2 ^ 53) e .exact).1.mantissa = 2 ^ 52 ∧
      (shiftToTargetExponent Format.binary64 (2 ^ 53) e .exact).2 = e + 1 := by
  have moves : (Format.binary64.targetExponent (totalExponent (2 ^ 53) e) - e).toNat = 1 := by
    rw [targetExponent_eq, Nat.log2_two_pow]
    omega
  unfold shiftToTargetExponent shiftToExponent
  dsimp only
  rw [moves]
  exact ⟨rfl, rfl⟩

/-- The first shift of a rounding drops the places of the excess. -/
theorem shiftToTargetExponent_rounds {m : Nat} {e : Int} (positive : 0 < m) (least : -1074 ≤ e)
    (low : e ≤ excess (magnitude m e) - 1074) :
    (shiftToTargetExponent Format.binary64 m e .exact).1.roundedMantissa =
        nearest (magnitude m e) (excess (magnitude m e)) ∧
      (shiftToTargetExponent Format.binary64 m e .exact).2 = excess (magnitude m e) - 1074 := by
  have places : excess (magnitude m e) =
      (excess (magnitude m e) - 1074 - e).toNat + (e + 1074).toNat := by omega
  unfold shiftToTargetExponent shiftToExponent
  dsimp only
  rw [targetExponent_of_least_le positive least]
  constructor
  · rw [(Dropped.shiftRight m _).roundedMantissa_eq]
    have scaled := nearest_mul_two_pow m (excess (magnitude m e) - 1074 - e).toNat
      (e + 1074).toNat
    rw [← places] at scaled
    exact scaled.symm
  · omega

/-- A rounded significand with its carry, and where it ends up. -/
theorem roundWithAccuracy_eq (sign : Sign) {m : Nat} {e : Int} (positive : 0 < m)
    (least : -1074 ≤ e) (low : e ≤ excess (magnitude m e) - 1074) :
    ∃ (m' : Nat) (e' : Int) (positive' : 0 < m'),
      Kept m' e' ∧ magnitude m' e' = rounded (magnitude m e) ∧
        roundWithAccuracy Format.binary64 sign m e .exact = .finite sign m' e' positive' := by
  obtain ⟨significand, exponent⟩ := shiftToTargetExponent_rounds positive least low
  have lowest : (-1074 : Int) ≤ excess (magnitude m e) - 1074 := by omega
  have place : ((excess (magnitude m e) : Int) - 1074 + 1074).toNat = excess (magnitude m e) := by
    omega
  unfold roundWithAccuracy
  dsimp only
  rw [significand, exponent]
  rcases Nat.lt_or_eq_of_le (nearest_excess_le (magnitude m e)) with fits | carry
  · have notZero := Nat.ne_of_gt (nearest_excess_pos (magnitude_pos e positive))
    rw [shiftToTargetExponent_of_lt fits lowest]
    refine ⟨_, _, Nat.pos_of_ne_zero notZero, ⟨fits, lowest, ?_⟩, ?_, dif_neg notZero⟩
    · rcases Nat.eq_zero_or_pos (excess (magnitude m e)) with none | some
      · rw [none]
        exact Or.inr rfl
      · exact Or.inl (le_nearest_excess some)
    · unfold rounded
      unfold magnitude at place ⊢
      rw [place]
  · have next : ((excess (magnitude m e) : Int) - 1074 + 1 + 1074).toNat =
        excess (magnitude m e) + 1 := by omega
    obtain ⟨mantissa, exponent⟩ := shiftToTargetExponent_carry lowest
    rw [carry]
    refine ⟨2 ^ 52, excess (magnitude m e) - 1074 + 1, by decide,
      ⟨by decide, by omega, Or.inl (Nat.le_refl _)⟩, ?_, ?_⟩
    · unfold rounded
      rw [carry]
      unfold magnitude at next ⊢
      rw [next, Nat.pow_succ]
      omega
    · have notZero : (shiftToTargetExponent Format.binary64 (2 ^ 53)
          (excess (magnitude m e) - 1074) .exact).1.mantissa ≠ 0 := by
        rw [mantissa]
        decide
      rw [dif_neg notZero]
      simp only [mantissa, exponent]

/-- Rounding a positive number gives the kept number whose magnitude is the rounded one. -/
theorem round_eq (sign : Sign) {m : Nat} {e : Int} (positive : 0 < m) (least : -1074 ≤ e) :
    ∃ (m' : Nat) (e' : Int) (positive' : 0 < m'),
      Kept m' e' ∧ magnitude m' e' = rounded (magnitude m e) ∧
        UnpackedFloat.round Format.binary64 sign m e = .finite sign m' e' positive' := by
  unfold UnpackedFloat.round decreaseExponent
  dsimp only
  rw [targetExponent_of_least_le positive least, Nat.shiftLeft_eq]
  have lowered : magnitude (m * 2 ^ (e - (excess (magnitude m e) - 1074)).toNat)
      (e - (e - (excess (magnitude m e) - 1074)).toNat) = magnitude m e :=
    magnitude_lowered m _ (by omega)
  have outcome := roundWithAccuracy_eq sign
    (Nat.mul_pos positive (Nat.two_pow_pos (e - (excess (magnitude m e) - 1074)).toNat))
    (show (-1074 : Int) ≤ e - (e - (excess (magnitude m e) - 1074)).toNat by omega)
    (by rw [lowered]; omega)
  rwa [lowered] at outcome

def repacked (a : UnpackedFloat) : UnpackedFloat :=
  UnpackedFloat.unpack Format.binary64 (UnpackedFloat.pack Format.binary64 a)

theorem rounded_ceiling : rounded ceiling = ceiling :=
  rounded_magnitude (Nat.two_pow_pos 52) kept_ceiling

/-- A rounded positive number is packed with its magnitude, or to infinity at the ceiling. -/
theorem count_repacked_round {m : Nat} {e : Int} (positive : 0 < m) (least : -1074 ≤ e) :
    (repacked (UnpackedFloat.round Format.binary64 .positive m e)).isNaN = false ∧
      count (repacked (UnpackedFloat.round Format.binary64 .positive m e)) =
        (min (rounded (magnitude m e)) ceiling : Nat) := by
  obtain ⟨m', e', positive', kept, same, result⟩ := round_eq .positive positive least
  rw [result, ← same]
  unfold repacked
  rw [unpack_pack_finite .positive positive' kept]
  by_cases fits : e' ≤ 971
  · have below := magnitude_lt_ceiling kept fits
    rw [if_pos fits, Nat.min_eq_left (Nat.le_of_lt below)]
    exact ⟨rfl, rfl⟩
  · have above : ceiling ≤ magnitude m' e' := by
      have normal := kept.normal.resolve_right (by omega)
      exact Nat.mul_le_mul normal (Nat.pow_le_pow_right (by decide) (by omega))
    rw [if_neg fits, Nat.min_eq_right above]
    exact ⟨rfl, rfl⟩

/-- The sum of two kept positive numbers has the rounded sum of their magnitudes. -/
theorem count_repacked_add_finite {m m' : Nat} {e e' : Int} (positive : 0 < m)
    (positive' : 0 < m') (kept : Kept m e) (kept' : Kept m' e') :
    let sum := repacked (UnpackedFloat.add Format.binary64 (.finite .positive m e positive)
      (.finite .positive m' e' positive'))
    sum.isNaN = false ∧
      count sum = (min (rounded (magnitude m e + magnitude m' e')) ceiling : Nat) := by
  have least := kept.least_le
  have least' := kept'.least_le
  have first := magnitude_lowered m (e - min e e').toNat (show (-1074 : Int) ≤ e - _ by omega)
  have second := magnitude_lowered m' (e' - min e e').toNat (show (-1074 : Int) ≤ e' - _ by omega)
  rw [show e - ((e - min e e').toNat : Int) = min e e' by omega] at first
  rw [show e' - ((e' - min e e').toNat : Int) = min e e' by omega] at second
  have positiveSum : 0 < m * 2 ^ (e - min e e').toNat + m' * 2 ^ (e' - min e e').toNat :=
    Nat.add_pos_left (Nat.mul_pos positive (Nat.two_pow_pos _)) _
  intro sum
  have rounding : sum = repacked (UnpackedFloat.round Format.binary64 .positive
      (m * 2 ^ (e - min e e').toNat + m' * 2 ^ (e' - min e e').toNat) (min e e')) := by
    show repacked (UnpackedFloat.normalize Format.binary64
      (((m <<< (e - min e e').toNat : Nat) : Int) + ((m' <<< (e' - min e e').toNat : Nat) : Int))
      (min e e') .positive) = _
    rw [Nat.shiftLeft_eq, Nat.shiftLeft_eq, ← Int.natCast_add]
    unfold UnpackedFloat.normalize
    rw [Int.compare_eq_gt.mpr (Int.natCast_pos.mpr positiveSum)]
    rfl
  rw [rounding, ← first, ← second, ← magnitude_add]
  exact count_repacked_round positiveSum (by omega)

theorem repacked_of_representable {a : UnpackedFloat} (has : Representable a) :
    repacked a = a := by
  unfold repacked
  cases a with
  | notANumber => exact unpack_pack_nan
  | infinity sign => exact unpack_pack_infinity sign
  | zero sign => exact unpack_pack_zero sign
  | finite sign m e positive => rw [unpack_pack_finite sign positive has.1, if_pos has.2]

structure FromZero (a : UnpackedFloat) : Prop where
  has : Representable a
  number : a.isNaN = false
  nonneg : 0 ≤ count a

theorem FromZero.cases {a : UnpackedFloat} (fromZero : FromZero a) :
    (∃ sign, a = .zero sign) ∨ a = .infinity .positive ∨
      ∃ (m : Nat) (e : Int) (positive : 0 < m),
        a = .finite .positive m e positive ∧ Kept m e ∧ e ≤ 971 := by
  obtain ⟨has, number, nonneg⟩ := fromZero
  cases a with
  | notANumber => cases number
  | infinity sign =>
      cases sign with
      | negative =>
          have below : count (.infinity .negative) < 0 :=
            Int.neg_neg_of_pos (Int.natCast_pos.mpr ceiling_pos)
          exact absurd nonneg (Int.not_le.mpr below)
      | positive => exact Or.inr (Or.inl rfl)
  | zero sign => exact Or.inl ⟨sign, rfl⟩
  | finite sign m e positive =>
      cases sign with
      | negative =>
          have below : count (.finite .negative m e positive) < 0 :=
            Int.neg_neg_of_pos (Int.natCast_pos.mpr (magnitude_pos e positive))
          exact absurd nonneg (Int.not_le.mpr below)
      | positive => exact Or.inr (Or.inr ⟨m, e, positive, rfl, has⟩)

theorem min_rounded_of_ceiling_le {n : Nat} (atLeast : ceiling ≤ n) :
    min (rounded n) ceiling = ceiling := by
  have above := rounded_mono atLeast
  rw [rounded_ceiling] at above
  exact Nat.min_eq_right above

theorem min_rounded_magnitude {m : Nat} {e : Int} (positive : 0 < m) (kept : Kept m e)
    (fits : e ≤ 971) : min (rounded (magnitude m e)) ceiling = magnitude m e := by
  rw [rounded_magnitude positive kept]
  exact Nat.min_eq_left (Nat.le_of_lt (magnitude_lt_ceiling kept fits))

theorem count_infinity : count (.infinity .positive) = ceiling :=
  rfl

theorem count_zero (sign : Sign) : count (.zero sign) = 0 :=
  rfl

theorem count_finite {m : Nat} (e : Int) (positive : 0 < m) :
    count (.finite .positive m e positive) = magnitude m e :=
  rfl

theorem rounded_zero : rounded 0 = 0 :=
  rfl

theorem FromZero.min_rounded_count {a : UnpackedFloat} (fromZero : FromZero a) :
    min (rounded (count a).toNat) ceiling = (count a).toNat := by
  rcases fromZero.cases with ⟨sign, rfl⟩ | rfl | ⟨m, e, positive, rfl, kept, fits⟩
  · rw [count_zero, Int.toNat_zero, rounded_zero, Nat.zero_min]
  · rw [count_infinity, Int.toNat_natCast]
    exact min_rounded_of_ceiling_le (Nat.le_refl _)
  · rw [count_finite, Int.toNat_natCast]
    exact min_rounded_magnitude positive kept fits

/-- Infinity absorbs what is added to it from zero up. -/
theorem FromZero.infinity_add {a : UnpackedFloat} (fromZero : FromZero a) :
    UnpackedFloat.add Format.binary64 (.infinity .positive) a = .infinity .positive ∧
      UnpackedFloat.add Format.binary64 a (.infinity .positive) = .infinity .positive := by
  rcases fromZero.cases with ⟨sign, rfl⟩ | rfl | ⟨m, e, positive, rfl, _⟩
  · exact ⟨rfl, rfl⟩
  · exact ⟨rfl, rfl⟩
  · exact ⟨rfl, rfl⟩

/-- The sum of two values from zero up counts as the rounded sum of their counts, and no more than
infinity does. -/
theorem count_repacked_add {a b : UnpackedFloat} (aFrom : FromZero a) (bFrom : FromZero b) :
    (repacked (UnpackedFloat.add Format.binary64 a b)).isNaN = false ∧
      count (repacked (UnpackedFloat.add Format.binary64 a b)) =
        (min (rounded ((count a).toNat + (count b).toNat)) ceiling : Nat) := by
  have endless {n : Nat} (atLeast : ceiling ≤ n) :
      (repacked (.infinity .positive)).isNaN = false ∧
        count (repacked (.infinity .positive)) = (min (rounded n) ceiling : Nat) := by
    rw [min_rounded_of_ceiling_le atLeast, repacked_of_representable (a := .infinity _) trivial,
      count_infinity]
    exact ⟨rfl, rfl⟩
  have unchanged {m : Nat} {e : Int} (positive : 0 < m) (kept : Kept m e) (fits : e ≤ 971) :
      (repacked (.finite .positive m e positive)).isNaN = false ∧
        count (repacked (.finite .positive m e positive)) =
          (min (rounded (magnitude m e)) ceiling : Nat) := by
    have has : Representable (.finite .positive m e positive) := ⟨kept, fits⟩
    rw [min_rounded_magnitude positive kept fits, repacked_of_representable has, count_finite]
    exact ⟨rfl, rfl⟩
  rcases aFrom.cases with ⟨s, rfl⟩ | rfl | ⟨m, e, positive, rfl, kept, fits⟩
  · rcases bFrom.cases with ⟨t, rfl⟩ | rfl | ⟨m, e, positive, rfl, kept, fits⟩
    · have sum : ∃ sign, UnpackedFloat.add Format.binary64 (.zero s) (.zero t) = .zero sign := by
        cases s <;> cases t <;> exact ⟨_, rfl⟩
      obtain ⟨sign, sum⟩ := sum
      rw [sum, repacked_of_representable (a := .zero sign) trivial, count_zero, count_zero,
        count_zero, Int.toNat_zero, rounded_zero, Nat.zero_min]
      exact ⟨rfl, rfl⟩
    · rw [count_zero, count_infinity, Int.toNat_zero, Int.toNat_natCast, Nat.zero_add]
      exact endless (Nat.le_refl _)
    · rw [count_zero, count_finite, Int.toNat_zero, Int.toNat_natCast, Nat.zero_add]
      exact unchanged positive kept fits
  · rw [count_infinity, Int.toNat_natCast]
    rcases bFrom.cases with ⟨t, rfl⟩ | rfl | ⟨m, e, positive, rfl, kept, fits⟩
    · exact endless (Nat.le_add_right _ _)
    · exact endless (Nat.le_add_right _ _)
    · exact endless (Nat.le_add_right _ _)
  · rw [count_finite, Int.toNat_natCast]
    rcases bFrom.cases with ⟨t, rfl⟩ | rfl | ⟨m', e', positive', rfl, kept', fits'⟩
    · rw [count_zero, Int.toNat_zero, Nat.add_zero]
      exact unchanged positive kept fits
    · rw [count_infinity, Int.toNat_natCast]
      exact endless (Nat.le_add_left _ _)
    · rw [count_finite, Int.toNat_natCast]
      exact count_repacked_add_finite positive positive' kept kept'

/-- A sum of nonzero numbers is no negative zero: it is a rounded number that is not zero, or the
positive zero. -/
theorem repacked_normalize_ne {n : Int} {e : Int} (least : -1074 ≤ e) :
    repacked (UnpackedFloat.normalize Format.binary64 n e .positive) ≠ .zero .negative := by
  have rounds (sign : Sign) {m : Nat} (positive : 0 < m) :
      repacked (UnpackedFloat.round Format.binary64 sign m e) ≠ .zero .negative := by
    obtain ⟨m', e', positive', kept, _, result⟩ := round_eq sign positive least
    rw [result]
    unfold repacked
    rw [unpack_pack_finite sign positive' kept]
    split <;> nofun
  unfold UnpackedFloat.normalize
  rcases Int.lt_trichotomy n 0 with below | rfl | above
  · rw [Int.compare_eq_lt.mpr below]
    exact rounds .negative (by omega)
  · rw [Int.compare_eq_eq.mpr rfl]
    dsimp only
    rw [repacked_of_representable (a := .zero _) trivial]
    nofun
  · rw [Int.compare_eq_gt.mpr above]
    exact rounds .positive (by omega)

/-- Only negative zeros add up to the negative zero. -/
theorem zeros_of_repacked_add {a b : UnpackedFloat} (aHas : Representable a)
    (bHas : Representable b)
    (sum : repacked (UnpackedFloat.add Format.binary64 a b) = .zero .negative) :
    a = .zero .negative ∧ b = .zero .negative := by
  have kept {c : UnpackedFloat} (has : Representable c) (same : repacked c = .zero .negative) :
      c = .zero .negative := (repacked_of_representable has).symm.trans same
  cases a with
  | notANumber => cases kept (c := .notANumber) trivial sum
  | infinity s =>
      cases b with
      | notANumber => cases kept (c := .notANumber) trivial sum
      | infinity t =>
          cases s with
          | negative =>
              cases t with
              | negative => cases kept (c := .infinity .negative) trivial sum
              | positive => cases kept (c := .notANumber) trivial sum
          | positive =>
              cases t with
              | negative => cases kept (c := .notANumber) trivial sum
              | positive => cases kept (c := .infinity .positive) trivial sum
      | zero t => cases kept (c := .infinity s) trivial sum
      | finite t m e positive => cases kept (c := .infinity s) trivial sum
  | zero s =>
      cases b with
      | notANumber => cases kept (c := .notANumber) trivial sum
      | infinity t => cases kept (c := .infinity t) trivial sum
      | zero t =>
          cases s with
          | negative =>
              cases t with
              | negative => exact ⟨rfl, rfl⟩
              | positive => cases kept (c := .zero .positive) trivial sum
          | positive =>
              cases t with
              | negative => cases kept (c := .zero .positive) trivial sum
              | positive => cases kept (c := .zero .positive) trivial sum
      | finite t m e positive => cases kept bHas sum
  | finite s m e positive =>
      cases b with
      | notANumber => cases kept (c := .notANumber) trivial sum
      | infinity t => cases kept (c := .infinity t) trivial sum
      | zero t => cases kept aHas sum
      | finite t m' e' positive' =>
          have least := aHas.1.least_le
          have least' := bHas.1.least_le
          exact absurd sum (repacked_normalize_ne (by omega))

end EchoState.Binary64
