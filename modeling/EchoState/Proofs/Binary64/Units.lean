import EchoState.Binary64
import Mathlib

/-!
# Binary64 values in units

Every binary64 value is a whole number of units of 2^-1074, and infinity takes the place of 2^1024.
Values compare as their counts of units do, and packing loses nothing of a value that binary64 has.
-/

namespace EchoState.Binary64

open Float.Model Float.Model.UnpackedFloat

/-- The significand and the exponent of a number as binary64 keeps it, the largest exponent
apart. -/
structure Kept (m : Nat) (e : Int) : Prop where
  significand_lt : m < 2 ^ 53
  least_le : -1074 ≤ e
  normal : 2 ^ 52 ≤ m ∨ e = -1074

/-- The value is one that binary64 has. -/
def Representable : UnpackedFloat → Prop
  | .finite _ m e _ => Kept m e ∧ e ≤ 971
  | _ => True

theorem toNat_implicit_append (fraction : BitVec 52) :
    (1#1 ++ fraction).toNat = 2 ^ 52 + fraction.toNat := by
  rw [BitVec.toNat_append, ← Nat.shiftLeft_add_eq_or_of_lt fraction.isLt]
  rfl

theorem representable_unpack (bits : BitVec 64) :
    Representable (UnpackedFloat.unpack Format.binary64 bits) := by
  unfold UnpackedFloat.unpack
  have fractionLt := (@unpackMantissa Format.binary64 bits).isLt
  have exponentLt := (@unpackExponent Format.binary64 bits).isLt
  dsimp only at fractionLt exponentLt ⊢
  split
  · split
    · trivial
    · trivial
  · rename_i notTop
    have below : (@unpackExponent Format.binary64 bits).toNat ≠ 2047 := by
      intro top
      exact notTop (BitVec.eq_of_toNat_eq top)
    split
    · split
      · trivial
      · rename_i bottom _
        refine ⟨⟨?_, ?_, Or.inr ?_⟩, ?_⟩
        · exact Nat.lt_trans fractionLt (by decide)
        · rw [bottom]
          decide
        · rw [bottom]
          decide
        · rw [bottom]
          decide
    · rename_i notBottom
      have above : (@unpackExponent Format.binary64 bits).toNat ≠ 0 := by
        intro bottom
        exact notBottom (BitVec.eq_of_toNat_eq bottom)
      have bias : (Format.binary64.exponentBias : Int) = 1023 := by decide
      refine ⟨⟨?_, ?_, Or.inl ?_⟩, ?_⟩
      · rw [toNat_implicit_append]
        omega
      · rw [bias]
        omega
      · rw [toNat_implicit_append]
        omega
      · rw [bias]
        omega

/-- A significand and an exponent as a number of units of 2^-1074. -/
def magnitude (m : Nat) (e : Int) : Nat :=
  m * 2 ^ (e + 1074).toNat

/-- The number of units of 2^-1074 in 2^1024, where infinity begins. -/
def ceiling : Nat :=
  magnitude (2 ^ 52) 972

theorem kept_ceiling : Kept (2 ^ 52) 972 :=
  ⟨by decide, by decide, Or.inl (Nat.le_refl _)⟩

/-- A value as a number of units of 2^-1074; infinity is where it begins. -/
def count : UnpackedFloat → Int
  | .notANumber => 0
  | .infinity sign => sign.apply ceiling
  | .zero _ => 0
  | .finite sign m e _ => sign.apply (magnitude m e)

theorem magnitude_pos {m : Nat} (e : Int) (positive : 0 < m) : 0 < magnitude m e :=
  Nat.mul_pos positive (Nat.two_pow_pos _)

theorem magnitude_lowered (m : Nat) {e : Int} (places : Nat) (least : -1074 ≤ e - places) :
    magnitude (m * 2 ^ places) (e - places) = magnitude m e := by
  have whole : (e + 1074).toNat = places + (e - places + 1074).toNat := by omega
  unfold magnitude
  rw [whole, Nat.pow_add, Nat.mul_assoc]

theorem magnitude_add (m m' : Nat) (e : Int) :
    magnitude (m + m') e = magnitude m e + magnitude m' e :=
  Nat.add_mul m m' _

theorem magnitude_lt_of_exponent_lt {m m' : Nat} {e e' : Int} (kept : Kept m e)
    (kept' : Kept m' e') (smaller : e < e') : magnitude m e < magnitude m' e' := by
  have normal : 2 ^ 52 ≤ m' := kept'.normal.resolve_right (by have := kept.least_le; omega)
  have least := kept.least_le
  calc
    magnitude m e < 2 ^ 53 * 2 ^ (e + 1074).toNat :=
      Nat.mul_lt_mul_of_pos_right kept.significand_lt (Nat.two_pow_pos _)
    _ = 2 ^ (53 + (e + 1074).toNat) := (Nat.pow_add ..).symm
    _ ≤ 2 ^ (52 + (e' + 1074).toNat) := Nat.pow_le_pow_right (by decide) (by omega)
    _ = 2 ^ 52 * 2 ^ (e' + 1074).toNat := Nat.pow_add ..
    _ ≤ magnitude m' e' := Nat.mul_le_mul_right _ normal

theorem magnitude_lt_ceiling {m : Nat} {e : Int} (kept : Kept m e) (atMost : e ≤ 971) :
    magnitude m e < ceiling :=
  magnitude_lt_of_exponent_lt kept kept_ceiling (by omega)

theorem ceiling_pos : 0 < ceiling :=
  magnitude_pos 972 (Nat.two_pow_pos 52)

/-- Kept numbers compare by exponent and then by significand as their magnitudes do. -/
theorem compare_magnitude {m m' : Nat} {e e' : Int} (kept : Kept m e) (kept' : Kept m' e') :
    (compare e e').then (compare m m') =
      compare (magnitude m e : Int) (magnitude m' e' : Int) := by
  rcases Int.lt_trichotomy e e' with smaller | same | larger
  · have less := magnitude_lt_of_exponent_lt kept kept' smaller
    rw [Int.compare_eq_lt.mpr smaller, Int.compare_eq_lt.mpr (Int.ofNat_lt.mpr less)]
    rfl
  · subst same
    rw [Int.compare_eq_eq.mpr rfl]
    show compare m m' = _
    rcases Nat.lt_trichotomy m m' with less | same | more
    · have scaled : magnitude m e < magnitude m' e :=
        Nat.mul_lt_mul_of_pos_right less (Nat.two_pow_pos _)
      rw [Nat.compare_eq_lt.mpr less, Int.compare_eq_lt.mpr (Int.ofNat_lt.mpr scaled)]
    · subst same
      rw [Nat.compare_eq_eq.mpr rfl, Int.compare_eq_eq.mpr rfl]
    · have scaled : magnitude m' e < magnitude m e :=
        Nat.mul_lt_mul_of_pos_right more (Nat.two_pow_pos _)
      rw [Nat.compare_eq_gt.mpr more, Int.compare_eq_gt.mpr (Int.ofNat_lt.mpr scaled)]
  · have more := magnitude_lt_of_exponent_lt kept' kept larger
    rw [Int.compare_eq_gt.mpr larger, Int.compare_eq_gt.mpr (Int.ofNat_lt.mpr more)]
    rfl

theorem compare_neg (x y : Int) : compare (-x) (-y) = compare y x := by
  rcases Int.lt_trichotomy x y with less | same | more
  · rw [Int.compare_eq_gt.mpr less, Int.compare_eq_gt.mpr (Int.neg_lt_neg less)]
  · rw [same]
    rw [Int.compare_eq_eq.mpr rfl, Int.compare_eq_eq.mpr rfl]
  · rw [Int.compare_eq_lt.mpr more, Int.compare_eq_lt.mpr (Int.neg_lt_neg more)]

theorem some_lt {x y : Int} (less : x < y) : some Ordering.lt = some (compare x y) :=
  congrArg some (Int.compare_eq_lt.mpr less).symm

theorem some_gt {x y : Int} (more : y < x) : some Ordering.gt = some (compare x y) :=
  congrArg some (Int.compare_eq_gt.mpr more).symm

theorem some_eq (x : Int) : some Ordering.eq = some (compare x x) :=
  congrArg some (Int.compare_eq_eq.mpr rfl).symm

/-- Values that binary64 has compare as their counts do. -/
theorem compare_eq_compare_count {a b : UnpackedFloat} (aHas : Representable a)
    (bHas : Representable b) (aNumber : a.isNaN = false) (bNumber : b.isNaN = false) :
    a.compare b = some (compare (count a) (count b)) := by
  have ceilingPos : (0 : Int) < ceiling := Int.ofNat_lt.mpr ceiling_pos
  cases a with
  | notANumber => cases aNumber
  | infinity s =>
      cases b with
      | notANumber => cases bNumber
      | infinity t =>
          cases s with
          | negative =>
              cases t with
              | negative => exact some_eq _
              | positive => exact some_lt (Int.lt_trans (Int.neg_neg_of_pos ceilingPos) ceilingPos)
          | positive =>
              cases t with
              | negative => exact some_gt (Int.lt_trans (Int.neg_neg_of_pos ceilingPos) ceilingPos)
              | positive => exact some_eq _
      | zero t =>
          cases s with
          | negative => exact some_lt (Int.neg_neg_of_pos ceilingPos)
          | positive => exact some_gt ceilingPos
      | finite t m e positive =>
          have above := Int.ofNat_lt.mpr (magnitude_pos e positive)
          have below := Int.ofNat_lt.mpr (magnitude_lt_ceiling bHas.1 bHas.2)
          cases s with
          | negative =>
              cases t with
              | negative => exact some_lt (Int.neg_lt_neg below)
              | positive => exact some_lt (Int.lt_trans (Int.neg_neg_of_pos ceilingPos) above)
          | positive =>
              cases t with
              | negative => exact some_gt (Int.lt_trans (Int.neg_neg_of_pos above) ceilingPos)
              | positive => exact some_gt below
  | zero s =>
      cases b with
      | notANumber => cases bNumber
      | infinity t =>
          cases t with
          | negative => exact some_gt (Int.neg_neg_of_pos ceilingPos)
          | positive => exact some_lt ceilingPos
      | zero t => exact some_eq _
      | finite t m e positive =>
          have above := Int.ofNat_lt.mpr (magnitude_pos e positive)
          cases t with
          | negative => exact some_gt (Int.neg_neg_of_pos above)
          | positive => exact some_lt above
  | finite s m e positive =>
      have above := Int.ofNat_lt.mpr (magnitude_pos e positive)
      cases b with
      | notANumber => cases bNumber
      | infinity t =>
          have below := Int.ofNat_lt.mpr (magnitude_lt_ceiling aHas.1 aHas.2)
          cases t with
          | negative =>
              cases s with
              | negative => exact some_gt (Int.neg_lt_neg below)
              | positive => exact some_gt (Int.lt_trans (Int.neg_neg_of_pos ceilingPos) above)
          | positive =>
              cases s with
              | negative => exact some_lt (Int.lt_trans (Int.neg_neg_of_pos above) ceilingPos)
              | positive => exact some_lt below
      | zero t =>
          cases s with
          | negative => exact some_lt (Int.neg_neg_of_pos above)
          | positive => exact some_gt above
      | finite t m' e' positive' =>
          have above' := Int.ofNat_lt.mpr (magnitude_pos e' positive')
          have sizes := compare_magnitude aHas.1 bHas.1
          cases s with
          | negative =>
              cases t with
              | negative =>
                  show some ((compare e e').then (compare m m')).swap = _
                  rw [sizes, Int.compare_swap]
                  exact congrArg some (compare_neg _ _).symm
              | positive => exact some_lt (Int.lt_trans (Int.neg_neg_of_pos above) above')
          | positive =>
              cases t with
              | negative => exact some_gt (Int.lt_trans (Int.neg_neg_of_pos above') above)
              | positive => exact congrArg some sizes

theorem compare_nan_left {a : UnpackedFloat} (nan : a.isNaN = true) (b : UnpackedFloat) :
    a.compare b = none := by
  cases a with
  | notANumber => rfl
  | infinity _ => cases nan
  | zero _ => cases nan
  | finite _ _ _ _ => cases nan

theorem compare_nan_right (a : UnpackedFloat) {b : UnpackedFloat} (nan : b.isNaN = true) :
    a.compare b = none := by
  cases b with
  | notANumber => cases a <;> rfl
  | infinity _ => cases nan
  | zero _ => cases nan
  | finite _ _ _ _ => cases nan

/-- A comparison holds when both values are numbers and their counts compare so. -/
theorem test_compare_iff {a b : UnpackedFloat} (aHas : Representable a) (bHas : Representable b)
    (test : Option Ordering → Bool) (fails : test none = false) :
    test (a.compare b) = true ↔
      a.isNaN = false ∧ b.isNaN = false ∧ test (some (compare (count a) (count b))) = true := by
  by_cases aNumber : a.isNaN = false
  · by_cases bNumber : b.isNaN = false
    · rw [compare_eq_compare_count aHas bHas aNumber bNumber]
      simp [aNumber, bNumber]
    · rw [compare_nan_right a ((Bool.not_eq_false _).mp bNumber)]
      simp [fails, bNumber]
  · rw [compare_nan_left ((Bool.not_eq_false _).mp aNumber)]
    simp [fails, aNumber]

@[simp]
theorem unpackSign_packComponents {spec : Format} (sign : Sign)
    (exponent : BitVec spec.exponentBits) (fraction : BitVec spec.mantissaBitsWithoutImplicit) :
    unpackSign (packComponents spec sign exponent fraction) = sign.toBitVec := by
  ext i inside
  obtain rfl : i = 0 := by omega
  simp [unpackSign, packComponents, BitVec.getLsbD_append, BitVec.getElem_append]

@[simp]
theorem ofBitVec_toBitVec (sign : Sign) : Sign.ofBitVec sign.toBitVec = sign := by
  cases sign <;> rfl

theorem unpack_pack_infinity (sign : Sign) :
    UnpackedFloat.unpack Format.binary64 (packedInfinity Format.binary64 sign) =
      .infinity sign := by
  simp [UnpackedFloat.unpack, packedInfinity]

theorem unpack_pack_zero (sign : Sign) :
    UnpackedFloat.unpack Format.binary64 (packedZero Format.binary64 sign) = .zero sign := by
  simp [UnpackedFloat.unpack, packedZero]

theorem unpack_pack_nan :
    UnpackedFloat.unpack Format.binary64 (packedNaN Format.binary64) = .notANumber := by
  simp [UnpackedFloat.unpack, packedNaN]

section Packing

variable (sign : Sign) {m : Nat} {e : Int} (positive : 0 < m) (kept : Kept m e)

include kept

theorem toNat_biased :
    (e + Format.binary64.exponentBias + (52 : Nat)).toNat = (e + 1075).toNat := by
  have least := kept.least_le
  have bias : (Format.binary64.exponentBias : Int) = 1023 := by decide
  rw [bias]
  congr 1
  omega

omit kept in
theorem toNat_exponentField (fits : e ≤ 971) :
    (BitVec.ofNat 11 (e + 1075).toNat).toNat = (e + 1075).toNat := by
  rw [BitVec.toNat_ofNat]
  exact Nat.mod_eq_of_lt (by omega)

theorem unpack_pack_normal (fits : e ≤ 971) (normal : 2 ^ 52 ≤ m) :
    UnpackedFloat.unpack Format.binary64
        (UnpackedFloat.pack Format.binary64 (.finite sign m e positive)) =
      .finite sign m e positive := by
  have least := kept.least_le
  have bias : (Format.binary64.exponentBias : Int) = 1023 := by decide
  have exponentToNat := toNat_exponentField fits
  have places : m.log2 + 1 = Format.binary64.mantissaBits := by
    have log : m.log2 = 52 := (Nat.log2_eq_iff (by omega)).mpr ⟨normal, kept.significand_lt⟩
    rw [log]
    rfl
  have notTop : BitVec.ofNat 11 (e + 1075).toNat ≠ -1#11 := by
    intro top
    have same := congrArg BitVec.toNat top
    rw [exponentToNat] at same
    have topToNat : (-1#11).toNat = 2047 := by decide
    omega
  have notBottom : BitVec.ofNat 11 (e + 1075).toNat ≠ 0#11 := by
    intro bottom
    have same := congrArg BitVec.toNat bottom
    rw [exponentToNat] at same
    have bottomToNat : (0#11).toNat = 0 := rfl
    omega
  have significand : (1#1 ++ BitVec.ofNat 52 m).toNat = m := by
    rw [toNat_implicit_append, BitVec.toNat_ofNat]
    have upper := kept.significand_lt
    omega
  unfold UnpackedFloat.pack
  dsimp only
  rw [toNat_biased kept, if_neg (by omega), if_pos places]
  simp only [UnpackedFloat.unpack, unpackMantissa_packComponents, unpackExponent_packComponents,
    unpackSign_packComponents, ofBitVec_toBitVec, if_neg notTop, if_neg notBottom, exponentToNat,
    significand, bias]
  congr 1
  omega

theorem unpack_pack_subnormal (small : m < 2 ^ 52) :
    UnpackedFloat.unpack Format.binary64
        (UnpackedFloat.pack Format.binary64 (.finite sign m e positive)) =
      .finite sign m e positive := by
  have bias : (Format.binary64.exponentBias : Int) = 1023 := by decide
  have bottom : e = -1074 := kept.normal.resolve_left (Nat.not_le_of_lt small)
  have places : m.log2 + 1 ≠ Format.binary64.mantissaBits := by
    have log : m.log2 < 52 := (Nat.log2_lt (by omega)).mpr small
    intro same
    have bits : Format.binary64.mantissaBits = 53 := rfl
    omega
  have fraction : (BitVec.ofNat 52 m).toNat = m := by
    rw [BitVec.toNat_ofNat]
    exact Nat.mod_eq_of_lt small
  have notZero : BitVec.ofNat 52 m ≠ 0#52 := by
    intro zero
    have same := congrArg BitVec.toNat zero
    rw [fraction] at same
    have zeroToNat : (0#52).toNat = 0 := rfl
    omega
  have bottomExponent : (0#11) ≠ -1#11 := by decide
  unfold UnpackedFloat.pack
  dsimp only
  rw [toNat_biased kept, if_neg (by omega), if_neg places]
  simp only [UnpackedFloat.unpack, unpackMantissa_packComponents, unpackExponent_packComponents,
    unpackSign_packComponents, ofBitVec_toBitVec, if_neg bottomExponent, if_true, dif_neg notZero,
    fraction, bias]
  subst bottom
  rfl

/-- A kept number is packed without loss, or to infinity when its exponent is too large. -/
theorem unpack_pack_finite :
    UnpackedFloat.unpack Format.binary64
        (UnpackedFloat.pack Format.binary64 (.finite sign m e positive)) =
      if e ≤ 971 then .finite sign m e positive else .infinity sign := by
  by_cases fits : e ≤ 971
  · rw [if_pos fits]
    by_cases normal : 2 ^ 52 ≤ m
    · exact unpack_pack_normal sign positive kept fits normal
    · exact unpack_pack_subnormal sign positive kept (Nat.lt_of_not_le normal)
  · rw [if_neg fits]
    have least := kept.least_le
    unfold UnpackedFloat.pack
    dsimp only
    rw [toNat_biased kept, if_pos (by omega)]
    exact unpack_pack_infinity sign

end Packing

end EchoState.Binary64
