import EchoState.Proofs.Scalar.Equality

/-!
# Gaps as a metric

The gap of two finite values is from zero up and vanishes only between equal ones: the numbers of
the running scalar are whole counts of its smallest number, so a difference that is not zero is
never rounded to zero. Zero is neutral on both sides of a sum from zero up, and such a sum vanishes
only when both of its addends do.
-/

namespace EchoState

/-- A scalar in which sizes are from zero up, finite values without a gap are equal, and zero is
neutral on the left too. -/
class MetricScalar (α : Type) [Scalar α] : Prop extends AdditiveScalar α, GapScalar α where
  zero_add : ∀ {x : α}, Scalar.le 0 x → Scalar.eq (0 + x) x
  zero_le_abs : ∀ {x : α}, Scalar.isNaN x = false → Scalar.le 0 (Scalar.abs x)
  abs_sub_eq_zero_iff : ∀ {x y : α}, Scalar.finite x → Scalar.finite y →
    (Scalar.abs (x - y) = 0 ↔ Scalar.eq x y)

namespace Scalar

variable {α : Type} [Scalar α] [MetricScalar α]

open OrderedScalar

theorem gap_nonneg {x y : α} (xFinite : finite x) (yFinite : finite y) : le 0 (abs (x - y)) := by
  apply MetricScalar.zero_le_abs
  exact GapScalar.isNaN_sub xFinite yFinite

theorem gap_le_zero_iff {x y : α} (xFinite : finite x) (yFinite : finite y) :
    le (abs (x - y)) 0 ↔ eq x y := by
  rw [← MetricScalar.abs_sub_eq_zero_iff xFinite yFinite]
  constructor
  · exact GapScalar.abs_eq_zero
  · intro none
    rw [none]
    exact zero_le_zero

theorem le_add_left {x z : α} (zNonneg : le 0 z) (xNonneg : le 0 x) : le x (z + x) := by
  have raised : le (0 + x) (z + x) :=
    AdditiveScalar.add_le_add zero_le_zero zNonneg xNonneg (le_refl (number_of_nonneg xNonneg))
  exact le_trans (eq_iff.mp (MetricScalar.zero_add xNonneg)).2 raised

theorem add_le_of_le_zero {x z : α} (zNonneg : le 0 z) (zAtMost : le z 0) (xNonneg : le 0 x) :
    le (z + x) x := by
  have lowered : le (z + x) (0 + x) :=
    AdditiveScalar.add_le_add zNonneg zAtMost xNonneg (le_refl (number_of_nonneg xNonneg))
  exact le_trans lowered (eq_iff.mp (MetricScalar.zero_add xNonneg)).1

theorem le_zero_of_add {x y : α} (xNonneg : le 0 x) (yNonneg : le 0 y) (sum : le (x + y) 0) :
    le x 0 ∧ le y 0 :=
  ⟨le_trans (le_add_right xNonneg yNonneg) sum, le_trans (le_add_left xNonneg yNonneg) sum⟩

theorem zero_lt_inf : lt (0 : α) inf := by
  have size : le (0 : α) (abs 0) :=
    MetricScalar.zero_le_abs (isNaN_of_finite MeasuredScalar.finite_zero)
  have below : lt (0 : α) 1 := lt_of_le_of_lt size MeasuredScalar.abs_zero_lt_one
  have top : le (1 : α) inf := le_inf (le_of_lt below)
  refine lt_iff.mpr ⟨AdditiveScalar.zero_le_inf, fun above => ?_⟩
  exact (lt_iff.mp below).2 (le_trans top above)

end Scalar

end EchoState

namespace EchoState.Binary64

open Float.Model Float.Model.UnpackedFloat

def smallest : ℚ :=
  2 ^ (-1074 : ℤ)

theorem onScale_smallest : OnScale smallest :=
  ⟨1, -1074, by norm_num, by norm_num, by norm_num, by rw [smallest, Int.cast_one, one_mul]⟩

theorem abs_eq_zero_iff {x : Float} : Scalar.abs x = 0 ↔ Scalar.isZero x := by
  rw [isZero_iff]
  constructor
  · intro none
    have values : (value x).abs = .zero .positive := by
      rw [← value_abs, none, value_zero]
    cases same : value x with
    | zero sign => exact ⟨sign, rfl⟩
    | notANumber | infinity | finite => rw [same] at values; cases values
  · rintro ⟨sign, zero⟩
    apply value_injective
    rw [value_abs, zero, value_zero]
    rfl

section Differences

variable {x y : Float} (xFinite : Scalar.finite x) (yFinite : Scalar.finite y)

include xFinite yFinite

theorem eq_of_apart_lt (less : amount x - amount y < smallest)
    (more : -smallest < amount x - amount y) : Scalar.eq x y := by
  have unit := two_zpow_pos 1074
  have whole : smallest * 2 ^ (1074 : ℤ) = 1 := by
    rw [smallest, ← zpow_add₀ two_ne_zero]
    rfl
  have apart : ((count (value x) - count (value y) : ℤ) : ℚ) =
      (amount x - amount y) * 2 ^ (1074 : ℤ) := by
    rw [Int.cast_sub, count_eq_exact (isKept_value xFinite), count_eq_exact (isKept_value yFinite),
      sub_mul]
    rfl
  have below : ((count (value x) - count (value y) : ℤ) : ℚ) < 1 := by
    rw [apart, ← whole]
    exact mul_lt_mul_of_pos_right less unit
  have above : (-1 : ℚ) < ((count (value x) - count (value y) : ℤ) : ℚ) := by
    rw [apart, ← whole, ← neg_mul]
    exact mul_lt_mul_of_pos_right more unit
  have below : count (value x) - count (value y) < 1 := by exact_mod_cast below
  have above : -1 < count (value x) - count (value y) := by exact_mod_cast above
  refine eq_iff.mpr ⟨Scalar.isNaN_of_finite xFinite, Scalar.isNaN_of_finite yFinite, ?_⟩
  omega

theorem eq_of_isZero_sub (zero : Scalar.isZero (x - y)) : Scalar.eq x y := by
  obtain ⟨sign, same⟩ := isZero_iff.mp zero
  have finite : Scalar.finite (x - y) := finite_iff.mpr (Or.inl ⟨sign, same⟩)
  have nothing : amount (x - y) = 0 := by
    unfold amount
    rw [same, exact_zero]
  have rounds := rounds_amount_sub xFinite yFinite
  have positive : 0 < smallest := two_zpow_pos _
  apply eq_of_apart_lt xFinite yFinite
  · exact lt_of_amount_lt (value_sub x y) rounds finite onScale_smallest
      (nothing.trans_lt positive)
  · exact lt_of_lt_amount (value_sub x y) rounds finite onScale_smallest.neg
      ((neg_neg_of_pos positive).trans_eq nothing.symm)

theorem abs_sub_eq_zero_iff : Scalar.abs (x - y) = 0 ↔ Scalar.eq x y := by
  rw [abs_eq_zero_iff]
  exact ⟨eq_of_isZero_sub xFinite yFinite, isZero_sub_of_eq yFinite⟩

end Differences

theorem zero_add_eq {x : Float} (nonneg : Scalar.le 0 x) : Scalar.eq (0 + x) x := by
  have fromZero := fromZero_value nonneg
  have zero : FromZero (value 0) := by
    rw [value_zero]
    exact ⟨trivial, rfl, Int.le_refl _⟩
  obtain ⟨number, sum⟩ := count_repacked_add zero fromZero
  rw [← value_add, value_zero, count_zero, Int.toNat_zero, Nat.zero_add,
    fromZero.min_rounded_count, Int.toNat_of_nonneg fromZero.nonneg] at sum
  exact eq_iff.mpr ⟨number, fromZero.number, sum⟩

end EchoState.Binary64

namespace EchoState

instance : MetricScalar Float where
  zero_add := Binary64.zero_add_eq
  zero_le_abs := Binary64.zero_le_abs
  abs_sub_eq_zero_iff := Binary64.abs_sub_eq_zero_iff

end EchoState
