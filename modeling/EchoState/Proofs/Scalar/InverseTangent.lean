import EchoState.Proofs.Binary64.Bits
import EchoState.Proofs.Scalar.Tangent

/-!
# The inverse activation inside its domain

The inverse hyperbolic tangent of a number below one in size is finite, and it is the negative zero
only for the negative zero. The quotient whose logarithm is taken is brought near one, so that the
series is summed for an argument of at most a fifth and stays close to its first term.
-/

namespace EchoState.Elementary

open Binary64

theorem unit_pos : 0 < unit :=
  Nat.two_pow_pos places

theorem shiftRight_places (n : Nat) : n >>> places = n / unit :=
  Nat.shiftRight_eq_div_pow n places

theorem atanhTail_le {w : Nat} (small : 9 * w ≤ unit) (terms j : Nat) :
    8 * atanhTail w terms j ≤ 9 * unit := by
  induction terms generalizing j with
  | zero => exact Nat.zero_le _
  | succ terms ih =>
      have first : unit / (2 * j + 1) ≤ unit := Nat.div_le_self _ _
      have product : 8 * (w * atanhTail w terms (j + 1)) ≤ unit * unit := by
        have both := Nat.mul_le_mul small (ih (j + 1))
        have factors : 9 * w * (8 * atanhTail w terms (j + 1)) =
            9 * (8 * (w * atanhTail w terms (j + 1))) := by ring
        have squares : unit * (9 * unit) = 9 * (unit * unit) := by ring
        rw [factors, squares] at both
        exact Nat.le_of_mul_le_mul_left both (by decide)
      have rest : 8 * (w * atanhTail w terms (j + 1) / unit) ≤ unit :=
        Nat.le_trans (Nat.mul_div_le_mul_div_assoc _ _ _) (Nat.div_le_of_le_mul product)
      rw [atanhTail, shiftRight_places]
      omega

theorem atanhSeries_bounds {v : Nat} (small : 5 * v ≤ unit) :
    v ≤ atanhSeries v ∧ 8 * atanhSeries v ≤ 9 * v := by
  have square : 9 * ((v * v) >>> places) ≤ unit := by
    rw [shiftRight_places]
    refine Nat.le_trans (Nat.mul_div_le_mul_div_assoc _ _ _) (Nat.div_le_of_le_mul ?_)
    nlinarith
  have upper := atanhTail_le square 48 0
  have lower : unit ≤ atanhTail ((v * v) >>> places) 48 0 := by
    rw [atanhTail, Nat.mul_zero, Nat.zero_add, Nat.div_one]
    exact Nat.le_add_right _ _
  unfold atanhSeries
  rw [shiftRight_places]
  constructor
  · rw [Nat.le_div_iff_mul_le unit_pos]
    exact Nat.mul_le_mul_left v lower
  · refine Nat.le_trans (Nat.mul_div_le_mul_div_assoc _ _ _) (Nat.div_le_of_le_mul ?_)
    calc
      8 * (v * atanhTail ((v * v) >>> places) 48 0) =
          v * (8 * atanhTail ((v * v) >>> places) 48 0) := by ring
      _ ≤ v * (9 * unit) := Nat.mul_le_mul_left v upper
      _ = unit * (9 * v) := by ring

theorem halfLogTwo_bounds : unit ≤ 4 * halfLogTwo ∧ halfLogTwo ≤ unit := by
  decide +kernel

/-- The power of two that brings a quotient near one. -/
def nearPower (p q : Nat) : Nat :=
  if 3 * q * 2 ^ (p / q).log2 < 2 * p then (p / q).log2 + 1 else (p / q).log2

theorem halfLog_eq (p q : Nat) :
    halfLog p q =
      if q * 2 ^ nearPower p q ≤ p then
        nearPower p q * halfLogTwo +
          atanhSeries ((p - q * 2 ^ nearPower p q) * unit / (p + q * 2 ^ nearPower p q))
      else
        nearPower p q * halfLogTwo -
          atanhSeries ((q * 2 ^ nearPower p q - p) * unit / (q * 2 ^ nearPower p q + p)) :=
  rfl

/-- The quotient is brought within two thirds and four thirds, from above only by a positive
power. -/
theorem nearPower_spec {p q : Nat} (positive : 0 < q) (atMost : q ≤ p) :
    2 * p ≤ 3 * (q * 2 ^ nearPower p q) ∧
      (p < q * 2 ^ nearPower p q → 1 ≤ nearPower p q ∧ 3 * (q * 2 ^ nearPower p q) < 4 * p) := by
  have quotient : p / q ≠ 0 := Nat.ne_of_gt (Nat.div_pos atMost positive)
  have low : q * 2 ^ (p / q).log2 ≤ p :=
    Nat.le_trans (Nat.mul_le_mul_left q (Nat.log2_self_le quotient)) (Nat.mul_div_le p q)
  have high : p < q * 2 ^ ((p / q).log2 + 1) :=
    (Nat.div_lt_iff_lt_mul positive).mp Nat.lt_log2_self |>.trans_eq (Nat.mul_comm _ _)
  have doubled : q * 2 ^ ((p / q).log2 + 1) = 2 * (q * 2 ^ (p / q).log2) := by
    rw [Nat.pow_succ]
    ring
  unfold nearPower
  by_cases far : 3 * q * 2 ^ (p / q).log2 < 2 * p
  · rw [if_pos far]
    rw [Nat.mul_assoc] at far
    exact ⟨by omega, fun _ => ⟨Nat.succ_pos _, by omega⟩⟩
  · rw [if_neg far]
    rw [Nat.mul_assoc] at far
    exact ⟨by omega, fun above => absurd low (by omega)⟩

theorem nearPower_le {p q k : Nat} (positive : 0 < k) (places : p < 2 ^ k) :
    nearPower p q ≤ k := by
  have small : (p / q).log2 < k := by
    by_cases zero : p / q = 0
    · simpa [zero] using positive
    · exact (Nat.log2_lt zero).mpr (Nat.lt_of_le_of_lt (Nat.div_le_self p q) places)
  unfold nearPower
  split
  · omega
  · omega

theorem fifth_le {part whole : Nat} (small : 5 * part ≤ whole) :
    5 * (part * unit / whole) ≤ unit := by
  rcases Nat.eq_zero_or_pos whole with rfl | positive
  · simp
  · refine Nat.le_trans (Nat.mul_div_le_mul_div_assoc _ _ _) (Nat.div_le_of_le_mul ?_)
    rw [← Nat.mul_assoc]
    exact Nat.mul_le_mul_right unit small

/-- Half the logarithm of a quotient above one is positive and not large. -/
theorem halfLog_bounds {p q k : Nat} (positive : 0 < q) (atMost : q ≤ p) (some : 0 < k)
    (places : p < 2 ^ k) (apart : p + q ≤ (p - q) * unit) :
    0 < halfLog p q ∧ halfLog p q ≤ (k + 1) * unit := by
  obtain ⟨low, high⟩ := nearPower_spec positive atMost
  obtain ⟨twoLower, twoUpper⟩ := halfLogTwo_bounds
  have unitPos := unit_pos
  have most : nearPower p q * halfLogTwo ≤ k * unit :=
    Nat.mul_le_mul (nearPower_le some places) twoUpper
  have once (atLeast : 1 ≤ nearPower p q) : halfLogTwo ≤ nearPower p q * halfLogTwo :=
    Nat.le_mul_of_pos_left halfLogTwo atLeast
  rw [halfLog_eq, Nat.succ_mul]
  by_cases below : q * 2 ^ nearPower p q ≤ p
  · have fifth := fifth_le (show 5 * (p - q * 2 ^ nearPower p q) ≤ p + q * 2 ^ nearPower p q by
      omega)
    obtain ⟨first, eighth⟩ := atanhSeries_bounds fifth
    rw [if_pos below]
    refine ⟨?_, by omega⟩
    rcases Nat.eq_zero_or_pos (nearPower p q) with none | atLeast
    · have argument : 1 ≤ (p - q) * unit / (p + q) := Nat.div_pos apart (by omega)
      rw [none, Nat.pow_zero, Nat.mul_one] at first ⊢
      omega
    · have := once atLeast
      omega
  · have above := high (by omega)
    have fifth := fifth_le (show 5 * (q * 2 ^ nearPower p q - p) ≤ q * 2 ^ nearPower p q + p by
      omega)
    obtain ⟨_, eighth⟩ := atanhSeries_bounds fifth
    have least := once above.1
    rw [if_neg below]
    omega

/-- The inverse tangent of a fraction that is neither one nor too small. -/
theorem finite_atanhMagnitude {m a : Nat} (most : a ≤ 1074) (below : m < 2 ^ a)
    (above : 2 ^ a ≤ m * unit) :
    ∃ sign m' e positive,
      value (atanhMagnitude ⟨m, -a⟩).toFloat = .finite sign m' e positive ∧ e ≤ 21 := by
  have one : (-(-(a : Int))).toNat = a := by omega
  have same : atanhMagnitude ⟨m, -a⟩ = ⟨halfLog (2 ^ a + m) (2 ^ a - m), -128⟩ := by
    unfold atanhMagnitude
    dsimp only
    rw [one]
    rfl
  have size : 2 ^ a + m < 2 ^ (a + 1) := by
    rw [Nat.pow_succ]
    omega
  have difference : 2 ^ a + m - (2 ^ a - m) = 2 * m := by omega
  have apart : 2 ^ a + m + (2 ^ a - m) ≤ (2 ^ a + m - (2 ^ a - m)) * unit := by
    rw [difference, Nat.mul_assoc]
    omega
  obtain ⟨positive, small⟩ :=
    halfLog_bounds (by omega) (by omega) (Nat.succ_pos a) size apart
  have units : (a + 1 + 1) * unit ≤ 1076 * unit := Nat.mul_le_mul_right unit (by omega)
  rw [same]
  exact finite_toFloat (Nat.ne_of_gt positive)
    (Nat.lt_of_le_of_lt (Nat.le_trans small units) (by decide))

theorem places_of_lt_one {m : Nat} {e : Int} (positive : 0 < m) (below : (m : ℚ) * 2 ^ e < 1) :
    ∃ a : Nat, e = -a ∧ m < 2 ^ a := by
  have negative : e ≤ 0 := by
    by_contra whole
    have power : (1 : ℚ) ≤ 2 ^ e := one_le_zpow₀ (by norm_num) (by omega)
    have atLeast : (1 : ℚ) ≤ m := by exact_mod_cast positive
    nlinarith
  obtain ⟨a, rfl⟩ := Int.exists_eq_neg_ofNat negative
  refine ⟨a, rfl, ?_⟩
  rw [zpow_neg, zpow_natCast, ← div_eq_mul_inv, div_lt_one (by positivity)] at below
  exact_mod_cast below

/-- The result for a magnitude below one that is not too small. -/
theorem finite_atanhMagnitude_of_between {m : Nat} {e : Int} (least : -1074 ≤ e) (positive : 0 < m)
    (below : (m : ℚ) * 2 ^ e < 1) (above : 1 / 2 ^ 30 ≤ (m : ℚ) * 2 ^ e) :
    ∃ sign m' e' positive,
      value (atanhMagnitude ⟨m, e⟩).toFloat = .finite sign m' e' positive ∧ e' ≤ 21 := by
  obtain ⟨a, rfl, fraction⟩ := places_of_lt_one positive below
  rw [zpow_neg, zpow_natCast, ← div_eq_mul_inv, div_le_div_iff₀ (by norm_num) (by positivity),
    one_mul] at above
  have counted : 2 ^ a ≤ m * 2 ^ 30 := by exact_mod_cast above
  have enough : 2 ^ a ≤ m * unit := Nat.le_trans counted (Nat.mul_le_mul_left m (by decide))
  exact finite_atanhMagnitude (by omega) fraction enough

section Inside

variable {x : Float} (finite : Scalar.finite x) (inside : Scalar.lt (Scalar.abs x) 1)

include finite inside

theorem abs_amount_lt_one : |amount x| < 1 := by
  rw [← amount_abs, ← amount_one]
  exact (lt_iff_amount_lt (finite_abs finite) finite_one).mp inside

/-- The inverse hyperbolic tangent of a number below one in size is the number itself, or a finite
number other than zero that is not large. -/
theorem atanh_cases : atanh x = x ∨
    ∃ sign m e positive, value (atanh x) = .finite sign m e positive ∧ e ≤ 21 := by
  have sizeFinite := finite_abs finite
  have boundFinite : Scalar.finite nearZero = true := by with_unfolding_all decide
  have bound : 1 / 2 ^ 30 ≤ amount nearZero := by with_unfolding_all decide
  have nearIff : x.abs < nearZero ↔ |amount x| < amount nearZero := by
    rw [← amount_abs, ← lt_iff_amount_lt sizeFinite boundFinite]
    exact decide_eq_true_iff.symm
  have below := abs_amount_lt_one finite inside
  have less : x.abs < 1 := of_decide_eq_true inside
  have notAbove : ¬(1 : Float) < x.abs := by
    intro above
    have above := (lt_iff_amount_lt finite_one sizeFinite).mp (decide_eq_true above)
    rw [amount_one, amount_abs] at above
    exact lt_asymm above below
  unfold atanh
  rw [ofFloat_eq_kind]
  rcases finite_iff.mp finite with ⟨sign, same⟩ | ⟨sign, m, e, positive, same⟩
  · have zero : amount x = 0 := by
      unfold amount
      rw [same, exact_zero]
    have near : x.abs < nearZero := by
      rw [nearIff, zero, abs_zero]
      linarith
    rw [same]
    dsimp only [kind]
    exact Or.inl (if_pos near)
  · have size : |amount x| = m * 2 ^ e := by
      unfold amount
      rw [same, abs_exact_finite]
    rw [same]
    dsimp only [kind]
    by_cases near : x.abs < nearZero
    · exact Or.inl (if_pos near)
    · rw [if_neg near, if_neg notAbove, if_pos less]
      have has := representable_value x
      rw [same] at has
      rw [nearIff, not_lt, size] at near
      rw [size] at below
      obtain ⟨sign', m', e', positive', result, small⟩ :=
        finite_atanhMagnitude_of_between has.1.least_le positive below (le_trans bound near)
      refine Or.inr ?_
      split
      · rw [value_neg, result]
        exact ⟨-sign', m', e', positive', rfl, small⟩
      · exact ⟨sign', m', e', positive', result, small⟩

theorem finite_atanh : Scalar.finite (atanh x) = true := by
  rcases atanh_cases finite inside with same | ⟨_, _, _, _, result, _⟩
  · rw [same]
    exact finite
  · exact finite_iff.mpr (Or.inr ⟨_, _, _, _, result⟩)

theorem neg_zero_of_atanh (zero : atanh x = -0) : x = -0 := by
  rcases atanh_cases finite inside with same | ⟨_, _, _, _, result, _⟩
  · rw [← same]
    exact zero
  · rw [zero, value_neg_zero] at result
    cases result

theorem abs_amount_atanh_le : |amount (atanh x)| ≤ 2 ^ 74 := by
  rcases atanh_cases finite inside with same | ⟨_, m, e, _, result, small⟩
  · rw [same]
    exact (abs_amount_lt_one finite inside).le.trans (by norm_num)
  · have has := representable_value (atanh x)
    rw [result] at has
    have significand : (m : ℚ) ≤ 2 ^ 53 := by exact_mod_cast has.1.significand_lt.le
    have power : (2 : ℚ) ^ e ≤ 2 ^ (21 : ℤ) := zpow_le_zpow_right₀ (by norm_num) small
    unfold amount
    rw [result, abs_exact_finite]
    calc
      (m : ℚ) * 2 ^ e ≤ 2 ^ 53 * 2 ^ (21 : ℤ) :=
        mul_le_mul significand power (two_zpow_pos e).le (by norm_num)
      _ = 2 ^ 74 := by norm_num

end Inside

end EchoState.Elementary
