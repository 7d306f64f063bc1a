import EchoState.Proofs.Scalar.Enclosure

/-!
# Square roots

The significand of a square root is the whole root of a number with at least twice its places, and
is rounded by whether anything was left over. So the root of a number from zero up is the rounding
of a number whose square is at most the argument; it is finite and not negative.
-/

namespace EchoState.Binary64

open Float.Model Float.Model.UnpackedFloat

/-- A number between the whole root of `n` and its exact root. -/
def belowRoot (n : Nat) : ℚ :=
  n.sqrt + ((n - n.sqrt * n.sqrt : Nat) : ℚ) / (2 * n.sqrt + 1)

section Whole

variable (n : Nat)

theorem sqrt_sq_add_rest : (n.sqrt : ℚ) ^ 2 + (n - n.sqrt * n.sqrt : Nat) = n := by
  have parts := Nat.add_sub_of_le (Nat.sqrt_le n)
  rw [sq]
  exact_mod_cast parts

theorem sqrt_le_belowRoot : (n.sqrt : ℚ) ≤ belowRoot n :=
  le_add_of_nonneg_right (by positivity)

theorem belowRoot_eq_iff : belowRoot n = n.sqrt ↔ n - n.sqrt * n.sqrt = 0 := by
  have divisor : (2 * n.sqrt + 1 : ℚ) ≠ 0 := by positivity
  rw [belowRoot, add_eq_left, div_eq_zero_iff, Nat.cast_eq_zero]
  exact or_iff_left divisor

theorem rest_div_lt_one : ((n - n.sqrt * n.sqrt : Nat) : ℚ) / (2 * n.sqrt + 1) < 1 := by
  have most := Nat.sqrt_le_add n
  have rest : n - n.sqrt * n.sqrt < 2 * n.sqrt + 1 := by omega
  rw [div_lt_one (by positivity)]
  exact_mod_cast rest

theorem belowRoot_sq_le : belowRoot n ^ 2 ≤ n := by
  have divisor : (0 : ℚ) < 2 * n.sqrt + 1 := by positivity
  have less := rest_div_lt_one n
  have whole := sqrt_sq_add_rest n
  unfold belowRoot
  generalize share_eq : ((n - n.sqrt * n.sqrt : Nat) : ℚ) / (2 * n.sqrt + 1) = share at less ⊢
  have nonneg : 0 ≤ share := by
    rw [← share_eq]
    positivity
  rw [div_eq_iff divisor.ne'] at share_eq
  calc
    (n.sqrt + share) ^ 2 = n.sqrt ^ 2 + (2 * n.sqrt * share + share * share) := by ring
    _ ≤ n.sqrt ^ 2 + (2 * n.sqrt * share + share) := by
      gcongr
      exact mul_le_of_le_one_left nonneg less.le
    _ = n := by linarith

/-- The whole root with the residual bits of a square root. -/
theorem Cut.root : Cut (belowRoot n) (.ofMantissaAndAccuracy n.sqrt
    (if n - n.sqrt * n.sqrt = 0 then .exact
      else .inexact (if n - n.sqrt * n.sqrt ≤ n.sqrt then .lt else .gt))) := by
  refine ⟨?_, ?_, ?_⟩
  · rw [mantissa_ofMantissaAndAccuracy]
    exact sqrt_le_belowRoot n
  · rw [mantissa_ofMantissaAndAccuracy, belowRoot]
    exact add_lt_add_right (rest_div_lt_one n) _
  · rw [mantissa_ofMantissaAndAccuracy, belowRoot_eq_iff]
    split
    · simp [*, ExtendedMantissa.ofMantissaAndAccuracy]
    · split <;> simp [*, ExtendedMantissa.ofMantissaAndAccuracy]

end Whole

/-- The root of a positive number is the rounding of one whose square is at most it. -/
theorem rounds_sqrt {m : Nat} (e : ℤ) (positive : 0 < m) :
    ∃ w : ℚ, 0 ≤ w ∧ w ^ 2 ≤ m * 2 ^ e ∧
      Rounds w (UnpackedFloat.sqrt Format.binary64 (.finite .positive m e positive)) := by
  unfold UnpackedFloat.sqrt sqrtCore
  dsimp only
  have bits : Format.binary64.mantissaBits = 53 := rfl
  have least : Format.binary64.minExponent = -1074 := by decide
  generalize place_eq : min (e.ediv 2) (Format.binary64.targetExponent
    ((totalExponent m e + 1).ediv 2)) = low
  unfold Format.targetExponent totalExponent at place_eq
  rw [bits, least] at place_eq
  have place_eq : min (e / 2) (max ((m.log2 + 1 + e + 1) / 2 - 53) (-1074)) = low := place_eq
  obtain ⟨count, gap⟩ := Int.le.dest (show 2 * low ≤ e by omega)
  have shifted : (e - 2 * low).toNat = count := by omega
  rw [shifted, Nat.shiftLeft_eq]
  have enough : 2 ^ 52 ≤ (m * 2 ^ count).sqrt ∨ low ≤ -1074 := by
    by_cases normal : -1074 < low
    · have places : 104 ≤ m.log2 + count := by omega
      refine Or.inl (Nat.le_sqrt.mpr ?_)
      calc
        2 ^ 52 * 2 ^ 52 = 2 ^ 104 := by decide
        _ ≤ 2 ^ (m.log2 + count) := Nat.pow_le_pow_right (by decide) places
        _ = 2 ^ m.log2 * 2 ^ count := Nat.pow_add ..
        _ ≤ m * 2 ^ count := Nat.mul_le_mul_right _ (Nat.log2_self_le (Nat.ne_of_gt positive))
    · exact Or.inr (by omega)
  refine ⟨_, ?_, ?_, rounds_roundWithAccuracy .positive (Cut.root (m * 2 ^ count)) enough⟩
  · have nonneg : (0 : ℚ) ≤ belowRoot (m * 2 ^ count) :=
      le_trans (Nat.cast_nonneg _) (sqrt_le_belowRoot _)
    exact mul_nonneg nonneg (two_zpow_pos low).le
  · have unit : ((2 : ℚ) ^ low) ^ 2 = 2 ^ (2 * low) := by rw [mul_comm, zpow_mul, zpow_ofNat]
    calc
      (belowRoot (m * 2 ^ count) * 2 ^ low) ^ 2 =
          belowRoot (m * 2 ^ count) ^ 2 * (2 : ℚ) ^ (2 * low) := by rw [mul_pow, unit]
      _ ≤ (m * 2 ^ count : Nat) * (2 : ℚ) ^ (2 * low) :=
        mul_le_mul_of_nonneg_right (belowRoot_sq_le _) (two_zpow_pos _).le
      _ = m * 2 ^ e := by
        rw [← gap, two_zpow_add]
        push_cast
        ring

theorem value_sqrt (x : Float) :
    value (Scalar.sqrt x) = repacked (UnpackedFloat.sqrt Format.binary64 (value x)) :=
  rfl

/-- The root of a number from zero up is not above any number of binary64 whose square is not below
it. -/
theorem within_sqrt {x : Float} {top : ℚ} (finite : Scalar.finite x) (nonneg : 0 ≤ amount x)
    (topOn : OnScale top) (topNonneg : 0 ≤ top) (atMost : amount x ≤ top ^ 2) :
    Within (Scalar.sqrt x) (some ⟨0, top⟩) := by
  have unpacked := value_sqrt x
  unfold amount at nonneg atMost
  rcases finite_iff.mp finite with ⟨sign, same⟩ | ⟨sign, m, e, positive, same⟩
  · rw [same] at unpacked
    exact within_of_rounds unpacked (rounds_zero sign) onScale_zero topOn (le_refl 0) topNonneg
  · rw [same] at unpacked nonneg atMost
    have size : (0 : ℚ) < m * 2 ^ e := mul_pos (Nat.cast_pos.mpr positive) (two_zpow_pos e)
    cases sign with
    | negative => exact absurd nonneg (not_le.mpr (neg_lt_zero.mpr size))
    | positive =>
        obtain ⟨w, wNonneg, square, rounds⟩ := rounds_sqrt e positive
        have below : w ≤ top := le_of_sq_le_sq (le_trans square atMost) topNonneg
        exact within_of_rounds unpacked rounds onScale_zero topOn wNonneg below

end EchoState.Binary64
