import EchoState.Binary64.Nearest
import EchoState.Proofs.Scalar.Float

/-!
# The bits of a binary64 number

The value that a number's bits stand for is the one it computes with, so a number can be known by
its bits: between those of zero and those of infinity lie the finite numbers above zero. The nearest
number of a magnitude is given by its bits, and from them it is seen to be finite.
-/

namespace EchoState.Binary64

open Float.Model Float.Model.UnpackedFloat

def kind : UnpackedFloat → Value
  | .notANumber => .notANumber
  | .infinity sign => .infinite (sign == .negative)
  | .zero sign => .finite (sign == .negative) ⟨0, leastExponent⟩
  | .finite sign m e _ => .finite (sign == .negative) ⟨m, e⟩

theorem toNat_unpackMantissa (bits : BitVec 64) :
    (@unpackMantissa Format.binary64 bits).toNat = bits.toNat % 2 ^ 52 := by
  rw [unpackMantissa_def, BitVec.extractLsb'_toNat, Nat.shiftRight_zero]

theorem toNat_unpackExponent (bits : BitVec 64) :
    (@unpackExponent Format.binary64 bits).toNat = (bits.toNat >>> 52) % 2 ^ 11 := by
  rw [unpackExponent_def, BitVec.extractLsb'_toNat]

theorem negative_unpackSign (bits : BitVec 64) :
    (Sign.ofBitVec (@unpackSign Format.binary64 bits) == .negative) = bits.toNat.testBit 63 := by
  rw [unpackSign_def]
  have bit : BitVec.extractLsb' 63 1 bits = BitVec.ofBool (bits.toNat.testBit 63) := by
    ext i inside
    obtain rfl : i = 0 := by omega
    simp only [BitVec.getElem_eq_testBit_toNat, BitVec.extractLsb'_toNat, Nat.testBit_zero, pow_one,
      dvd_refl, Nat.mod_mod_of_dvd, Nat.decide_shiftRight_mod_two_eq_one, BitVec.toNat_ofBool]
    cases bits.toNat.testBit 63 <;> rfl
  show (Sign.ofBitVec (BitVec.extractLsb' 63 1 bits) == .negative) = _
  rw [bit]
  cases bits.toNat.testBit 63 <;> rfl

theorem finite_congr {negative : Bool} {m m' : Nat} {e e' : Int} (significand : m = m')
    (exponent : e = e') : Value.finite negative ⟨m, e⟩ = .finite negative ⟨m', e'⟩ := by
  rw [significand, exponent]

theorem ofBits_eq_kind (bits : BitVec 64) :
    Value.ofBits bits.toNat = kind (UnpackedFloat.unpack Format.binary64 bits) := by
  have fraction := toNat_unpackMantissa bits
  have biased := toNat_unpackExponent bits
  have bias : (Format.binary64.exponentBias : Int) = 1023 := by decide
  unfold Value.ofBits UnpackedFloat.unpack
  dsimp only
  rw [← negative_unpackSign]
  have top : @unpackExponent Format.binary64 bits = -1#11 ↔
      (bits.toNat >>> fractionBits) % Nat.pow 2 11 = Nat.pow 2 11 - 1 := by
    rw [← BitVec.toNat_inj]
    exact Iff.of_eq (congrArg (· = 2047) biased)
  have bottom : @unpackExponent Format.binary64 bits = 0#11 ↔
      (bits.toNat >>> fractionBits) % Nat.pow 2 11 = 0 := by
    rw [← BitVec.toNat_inj]
    exact Iff.of_eq (congrArg (· = 0) biased)
  have empty : @unpackMantissa Format.binary64 bits = 0#52 ↔
      bits.toNat % Nat.pow 2 fractionBits = 0 := by
    rw [← BitVec.toNat_inj]
    exact Iff.of_eq (congrArg (· = 0) fraction)
  split
  · rename_i isTop
    rw [if_pos (top.mpr isTop)]
    split
    · rename_i isEmpty
      rw [if_pos (empty.mpr isEmpty)]
      rfl
    · rename_i notEmpty
      rw [if_neg (mt empty.mp notEmpty)]
      rfl
  · rename_i notTop
    rw [if_neg (mt top.mp notTop)]
    split
    · rename_i isBottom
      rw [if_pos (bottom.mpr isBottom)]
      split
      · rename_i isEmpty
        rw [empty.mp isEmpty]
        rfl
      · refine finite_congr fraction.symm ?_
        rw [bottom.mpr isBottom]
        decide
    · rename_i notBottom
      rw [if_neg (mt bottom.mp notBottom)]
      have significand := toNat_implicit_append (@unpackMantissa Format.binary64 bits)
      rw [fraction] at significand
      refine finite_congr significand.symm ?_
      have some : (bits.toNat >>> 52) % 2 ^ 11 ≠ 0 := notBottom
      rw [biased, bias]
      unfold leastExponent
      show (-1074 : Int) + ((bits.toNat >>> 52 % 2 ^ 11 - 1 : Nat) : Int) = _
      omega


theorem ofFloat_eq_kind (x : Float) : Value.ofFloat x = kind (value x) :=
  ofBits_eq_kind x.toBits.toBitVec

theorem value_ofBits (bits : UInt64) :
    value (Float.ofBits bits) = UnpackedFloat.unpack Format.binary64 bits.toBitVec :=
  repacked_of_representable (representable_unpack _)

theorem kind_ofBits {bits : Nat} (word : bits < UInt64.size) :
    kind (value (Float.ofBits bits.toUInt64)) = Value.ofBits bits := by
  rw [value_ofBits, ← ofBits_eq_kind]
  exact congrArg Value.ofBits (Nat.mod_eq_of_lt word)

/-- Bits between those of zero and those of infinity are of a finite number other than zero, whose
exponent is counted by the upper bits. -/
theorem ofBits_between {bits : Nat} (positive : 0 < bits) (below : bits < infinityBits) :
    ∃ negative m e, Value.ofBits bits = .finite negative ⟨m, e⟩ ∧ m ≠ 0 ∧
      e ≤ (bits / 2 ^ 52 : Nat) - 1074 := by
  have exponent : bits / 2 ^ 52 < 2047 := (Nat.div_lt_iff_lt_mul (by decide)).mpr below
  have biased : (bits >>> fractionBits) % Nat.pow 2 11 = bits / 2 ^ 52 := by
    rw [Nat.shiftRight_eq_div_pow]
    exact Nat.mod_eq_of_lt (Nat.lt_trans exponent (by decide))
  unfold Value.ofBits
  dsimp only
  rw [biased, if_neg (Nat.ne_of_lt exponent)]
  split
  · rename_i subnormal
    have small : bits < 2 ^ 52 := (Nat.div_eq_zero_iff_lt (by decide)).mp subnormal
    have fraction : bits % Nat.pow 2 fractionBits = bits := Nat.mod_eq_of_lt small
    exact ⟨_, _, _, rfl, by rw [fraction]; omega, by unfold leastExponent; omega⟩
  · exact ⟨_, _, _, rfl, Nat.ne_of_gt (Nat.add_pos_left (by decide) _),
      by unfold leastExponent; omega⟩

theorem finite_ofBits {bits : Nat} (positive : 0 < bits) (below : bits < infinityBits) :
    ∃ sign m e some, value (Float.ofBits bits.toUInt64) = .finite sign m e some ∧
      e ≤ (bits / 2 ^ 52 : Nat) - 1074 := by
  obtain ⟨negative, m, e, bitsKind, notZero, small⟩ := ofBits_between positive below
  have same := kind_ofBits (Nat.lt_trans below (by decide))
  rw [bitsKind] at same
  cases unpacked : value (Float.ofBits bits.toUInt64) with
  | notANumber =>
      rw [unpacked] at same
      cases same
  | infinity sign =>
      rw [unpacked] at same
      cases same
  | zero sign =>
      rw [unpacked] at same
      cases same
      exact absurd rfl notZero
  | finite sign m e some =>
      rw [unpacked] at same
      cases same
      exact ⟨_, _, _, some, rfl, small⟩

theorem roundDiv_bounds (n d : Nat) :
    n / d ≤ Decimal.roundDiv n d ∧ Decimal.roundDiv n d ≤ n / d + 1 := by
  unfold Decimal.roundDiv
  dsimp only
  split
  · omega
  · split
    · omega
    · omega

/-- A number brought to 53 bits by a shift one way or the other. -/
theorem shifted_bounds {n : Nat} (some : n ≠ 0) :
    2 ^ 52 ≤ n * 2 ^ (52 - n.log2) / 2 ^ (n.log2 - 52) ∧
      n * 2 ^ (52 - n.log2) / 2 ^ (n.log2 - 52) < 2 ^ 53 := by
  have low : 2 ^ n.log2 ≤ n := Nat.log2_self_le some
  have high : n < 2 ^ (n.log2 + 1) := Nat.lt_log2_self
  have divisor : 0 < 2 ^ (n.log2 - 52) := Nat.two_pow_pos _
  have lower : 2 ^ n.log2 * 2 ^ (52 - n.log2) = 2 ^ 52 * 2 ^ (n.log2 - 52) := by
    rw [← Nat.pow_add, ← Nat.pow_add]
    congr 1
    omega
  have upper : 2 ^ (n.log2 + 1) * 2 ^ (52 - n.log2) = 2 ^ 53 * 2 ^ (n.log2 - 52) := by
    rw [← Nat.pow_add, ← Nat.pow_add]
    congr 1
    omega
  constructor
  · rw [Nat.le_div_iff_mul_le divisor, ← lower]
    exact Nat.mul_le_mul_right _ low
  · rw [Nat.div_lt_iff_lt_mul divisor, ← upper]
    exact Nat.mul_lt_mul_of_pos_right high (Nat.two_pow_pos _)

/-- A magnitude that counts units of 2^-128 rounds to a finite number other than zero, and not to a
large one when the count is not large. -/
theorem finite_toFloat {n : Nat} (some : n ≠ 0) (small : n < 2 ^ 200) :
    ∃ sign m e positive,
      value (Magnitude.mk n (-128)).toFloat = .finite sign m e positive ∧ e ≤ 21 := by
  have places : n.log2 < 200 := (Nat.log2_lt some).mpr small
  have unit : (Magnitude.mk n (-128)).unitPlace = n.log2 - 180 := by
    unfold Magnitude.unitPlace leastExponent fractionBits
    rw [if_neg some]
    dsimp only
    omega
  have significand : (Magnitude.mk n (-128)).roundedSignificand =
      Decimal.roundDiv (n * 2 ^ (52 - n.log2)) (2 ^ (n.log2 - 52)) := by
    unfold Magnitude.roundedSignificand
    dsimp only
    rw [unit]
    have lowered : (-((n.log2 : Int) - 180 - -128)).toNat = 52 - n.log2 := by omega
    have raised : ((n.log2 : Int) - 180 - -128).toNat = n.log2 - 52 := by omega
    rw [lowered, raised]
    rfl
  obtain ⟨atLeast, atMost⟩ := roundDiv_bounds (n * 2 ^ (52 - n.log2)) (2 ^ (n.log2 - 52))
  obtain ⟨low, high⟩ := shifted_bounds some
  have bits : (Magnitude.mk n (-128)).nearestBits =
      min infinityBits ((n.log2 + 894) * 2 ^ 52 +
        Decimal.roundDiv (n * 2 ^ (52 - n.log2)) (2 ^ (n.log2 - 52))) := by
    unfold Magnitude.nearestBits
    rw [unit, significand]
    have place : ((n.log2 : Int) - 180 - leastExponent).toNat = n.log2 + 894 := by
      unfold leastExponent
      omega
    rw [place]
    rfl
  have limit : infinityBits = 2047 * 2 ^ 52 := rfl
  have between : 0 < (Magnitude.mk n (-128)).nearestBits ∧
      (Magnitude.mk n (-128)).nearestBits < infinityBits ∧
      (Magnitude.mk n (-128)).nearestBits / 2 ^ 52 ≤ 1095 := by
    rw [bits]
    omega
  obtain ⟨sign, m, e, positive, same, exponent⟩ := finite_ofBits between.1 between.2.1
  exact ⟨sign, m, e, positive, same, by omega⟩

end EchoState.Binary64
