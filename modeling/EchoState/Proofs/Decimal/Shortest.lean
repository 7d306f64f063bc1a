import EchoState.Decimal.Shortest
import EchoState.Proofs.Binary64.Exact

/-!
# The shortest digits read back

The decimal numbers that read back as a binary magnitude form an interval around it. The intervals
of two numbers that binary64 has do not meet: the larger begins where the smaller ends or later, and
an end that they share belongs to the even one only. A point that is taken from a decimal grid lies
in the interval, and a grid finer than the interval has such a point; since the search comes to a
grid that is fine enough, the digits it ends with read back.
-/

namespace EchoState.Decimal.Digits

def value (digits : Digits) : ℚ :=
  digits.coefficient * 10 ^ digits.exponent

end EchoState.Decimal.Digits

namespace EchoState.Binary64.Magnitude

namespace Interval

/-- The one number comes before the other, or is the same if the ends belong to the interval. -/
def Precedes {β : Type} [LT β] (around : Interval) (x y : β) : Prop :=
  x < y ∨ around.closed = true ∧ x = y

instance (around : Interval) (a b : ℕ) : Decidable (around.Precedes a b) :=
  inferInstanceAs (Decidable (a < b ∨ around.closed = true ∧ a = b))

variable {around around' : Interval} {a b : ℕ} {x y z scale : ℚ}

theorem decide_precedes :
    (if around.closed then decide (a ≤ b) else decide (a < b)) = decide (around.Precedes a b) := by
  obtain ⟨low, middle, high, closed⟩ := around
  unfold Precedes
  cases closed with
  | false => simp
  | true => simp [Nat.le_iff_lt_or_eq]

theorem precedes_scaled (positive : 0 < scale) (left : (a : ℚ) = x * scale)
    (right : (b : ℚ) = y * scale) : around.Precedes a b ↔ around.Precedes x y := by
  unfold Precedes
  rw [← Nat.cast_lt (α := ℚ), ← Nat.cast_inj (R := ℚ), left, right,
    mul_lt_mul_iff_left₀ positive, mul_left_inj' positive.ne']

/-- A number in front of the end of one interval and behind the start of another that begins there
or later is that end, and it belongs to both. -/
theorem Precedes.meet (before : around.Precedes z x) (behind : around'.Precedes y z)
    (apart : x ≤ y) : around.closed = true ∧ around'.closed = true ∧ x = y := by
  rcases before with before | ⟨closed, rfl⟩
  · rcases behind with behind | ⟨-, rfl⟩
    · exact absurd (behind.trans before) (not_lt.mpr apart)
    · exact absurd before (not_lt.mpr apart)
  · rcases behind with behind | ⟨closed', rfl⟩
    · exact absurd behind (not_lt.mpr apart)
    · exact ⟨closed, closed', rfl⟩

end Interval

def quarter (magnitude : Magnitude) : ℚ :=
  2 ^ (magnitude.exponent - 2)

/-- The number lies in the interval around the magnitude. -/
def ReadsBack (magnitude : Magnitude) (x : ℚ) : Prop :=
  magnitude.interval.Precedes (magnitude.interval.low * magnitude.quarter) x ∧
    magnitude.interval.Precedes x (magnitude.interval.high * magnitude.quarter)

theorem low_le_middle (magnitude : Magnitude) :
    magnitude.interval.low ≤ magnitude.interval.middle := by
  unfold interval
  dsimp only
  split <;> omega

theorem middle_lt_high (magnitude : Magnitude) :
    magnitude.interval.middle < magnitude.interval.high :=
  Nat.lt_add_of_pos_right (by decide)

theorem low_add_three_le_high {magnitude : Magnitude} (notZero : magnitude.significand ≠ 0) :
    magnitude.interval.low + 3 ≤ magnitude.interval.high := by
  unfold interval
  dsimp only
  split <;> omega

theorem readsBack_zero : (mk 0 leastExponent).ReadsBack 0 :=
  ⟨.inr ⟨rfl, zero_mul _⟩, .inl (mul_pos two_pos (two_zpow_pos _))⟩

/-! ## One magnitude at most -/

section Unique

variable {m m' places : ℕ} {e e' : ℤ} {x : ℚ}

/-- The interval of the larger number begins where that of the smaller one ends, or later; an end
that they share does not belong to both. -/
theorem high_le_low (kept : Kept m e) (kept' : Kept m' e') (later : e' = e + places)
    (larger : places = 0 ∧ m < m' ∨ 0 < places) :
    (mk m e).interval.high ≤ (mk m' e').interval.low * 2 ^ places ∧
      ((mk m e).interval.high = (mk m' e').interval.low * 2 ^ places →
        (mk m e).interval.closed = true → (mk m' e').interval.closed = false) := by
  rcases larger with ⟨rfl, larger⟩ | some
  · unfold interval
    dsimp only
    split <;> grind
  · have small := kept.significand_lt
    have least := kept.least_le
    have normal : 2 ^ 52 ≤ m' := kept'.normal.resolve_right (by omega)
    have low : 2 ^ 54 - 1 ≤ (mk m' e').interval.low := by
      unfold interval fractionBits leastExponent
      dsimp only
      rw [Nat.pow_eq]
      split <;> omega
    have high : (mk m e).interval.high = 4 * m + 2 := rfl
    have shifted : (mk m' e').interval.low * 2 ≤ (mk m' e').interval.low * 2 ^ places :=
      Nat.mul_le_mul_left _ (Nat.le_self_pow some.ne' 2)
    refine ⟨by omega, fun shared even => ?_⟩
    -- an end is shared only below a power of two, and the significand there is odd
    have isEven : m % 2 = 0 := of_decide_eq_true even
    omega

theorem not_readsBack_both (kept : Kept m e) (kept' : Kept m' e') (later : e' = e + places)
    (larger : places = 0 ∧ m < m' ∨ 0 < places) (back : (mk m e).ReadsBack x) :
    ¬(mk m' e').ReadsBack x := by
  intro back'
  obtain ⟨apart, shared⟩ := high_le_low kept kept' later larger
  have positive : 0 < (mk m e).quarter := two_zpow_pos _
  have rescaled : (mk m' e').interval.low * (mk m' e').quarter =
      ((mk m' e').interval.low * 2 ^ places : ℕ) * (mk m e).quarter := by
    have exponents : e' - 2 = e - 2 + places := by omega
    unfold quarter
    dsimp only
    rw [exponents, two_zpow_add, Nat.cast_mul, Nat.cast_pow, mul_assoc, Nat.cast_ofNat]
  have apart' : (mk m e).interval.high * (mk m e).quarter ≤
      (mk m' e').interval.low * (mk m' e').quarter := by
    rw [rescaled]
    exact mul_le_mul_of_nonneg_right (Nat.cast_le.mpr apart) positive.le
  obtain ⟨even, even', same⟩ := back.2.meet back'.1 apart'
  rw [rescaled] at same
  rw [shared (Nat.cast_injective (mul_right_cancel₀ positive.ne' same)) even] at even'
  cases even'

theorem eq_of_readsBack (kept : Kept m e) (kept' : Kept m' e') (back : (mk m e).ReadsBack x)
    (back' : (mk m' e').ReadsBack x) : mk m e = mk m' e' := by
  rcases lt_trichotomy e e' with less | rfl | more
  · obtain ⟨places, later⟩ := Int.le.dest less.le
    exact absurd back' (not_readsBack_both kept kept' later.symm (.inr (by omega)) back)
  · have here : e = e + (0 : ℕ) := (Int.add_zero e).symm
    rcases lt_trichotomy m m' with less | rfl | more
    · exact absurd back' (not_readsBack_both kept kept' here (.inl ⟨rfl, less⟩) back)
    · rfl
    · exact absurd back (not_readsBack_both kept' kept here (.inl ⟨rfl, more⟩) back')
  · obtain ⟨places, later⟩ := Int.le.dest more.le
    exact absurd back (not_readsBack_both kept' kept later.symm (.inr (by omega)) back')

end Unique

/-! ## Points of a grid -/

section Grid

variable {magnitude : Magnitude} {place : ℤ} {quarter unit point : ℕ}

theorem zpow_mul_toNat {b : ℚ} (notZero : b ≠ 0) (k : ℤ) :
    b ^ k * b ^ (-k).toNat = b ^ k.toNat := by
  rw [← zpow_natCast, ← zpow_natCast, ← zpow_add₀ notZero]
  congr 1
  omega

/-- A power of two and a power of ten as natural numbers on one scale. -/
theorem exists_scale (e place : ℤ) :
    ∃ (quarter unit : ℕ) (scale : ℚ), inUnits ⟨1, e⟩ place = (quarter, unit) ∧ 0 < scale ∧
      quarter = 2 ^ e * scale ∧ unit = 10 ^ place * scale := by
  refine ⟨_, _, 2 ^ (-e).toNat * 10 ^ (-place).toNat, rfl, by positivity, ?quarter, ?unit⟩
  case quarter =>
    have two := zpow_mul_toNat (b := 2) (by norm_num) e
    simp only [Nat.pow_eq, Nat.one_mul, Nat.cast_mul, Nat.cast_pow, Nat.cast_ofNat]
    rw [← two, mul_assoc]
  case unit =>
    have ten := zpow_mul_toNat (b := 10) (by norm_num) place
    simp only [Nat.pow_eq, Nat.cast_mul, Nat.cast_pow, Nat.cast_ofNat]
    rw [← ten, mul_left_comm]

theorem gridPoint?_cases (ratio : inUnits ⟨1, magnitude.exponent - 2⟩ place = (quarter, unit)) :
    let around := magnitude.interval
    let below := around.middle * quarter / unit
    magnitude.gridPoint? place = none ∧ ¬around.Precedes (around.low * quarter) (below * unit) ∧
        ¬around.Precedes ((below + 1) * unit) (around.high * quarter) ∨
      magnitude.gridPoint? place = some below ∧
        around.Precedes (around.low * quarter) (below * unit) ∨
      magnitude.gridPoint? place = some (below + 1) ∧
        around.Precedes ((below + 1) * unit) (around.high * quarter) := by
  intro around below
  unfold gridPoint?
  rw [ratio]
  dsimp only
  rw [Interval.decide_precedes, Interval.decide_precedes]
  by_cases down : around.Precedes (around.low * quarter) (below * unit)
  · by_cases up : around.Precedes ((below + 1) * unit) (around.high * quarter)
    · rw [decide_eq_true down, decide_eq_true up]
      dsimp only
      split
      · exact .inr (.inl ⟨rfl, down⟩)
      · exact .inr (.inr ⟨rfl, up⟩)
    · rw [decide_eq_true down, decide_eq_false up]
      exact .inr (.inl ⟨rfl, down⟩)
  · by_cases up : around.Precedes ((below + 1) * unit) (around.high * quarter)
    · rw [decide_eq_false down, decide_eq_true up]
      exact .inr (.inr ⟨rfl, up⟩)
    · rw [decide_eq_false down, decide_eq_false up]
      exact .inl ⟨rfl, down, up⟩

theorem readsBack_of_gridPoint? (found : magnitude.gridPoint? place = some point) :
    magnitude.ReadsBack (point * 10 ^ place) := by
  obtain ⟨quarter, unit, scale, ratio, scalePos, quarterEq, unitEq⟩ :=
    exists_scale (magnitude.exponent - 2) place
  have quarterPos : 0 < quarter := by
    rw [← Nat.cast_pos (α := ℚ), quarterEq]
    positivity
  have unitPos : 0 < unit := by
    rw [← Nat.cast_pos (α := ℚ), unitEq]
    positivity
  have inGrid (n : ℕ) : ((n * unit : ℕ) : ℚ) = n * 10 ^ place * scale := by
    rw [Nat.cast_mul, unitEq, mul_assoc]
  have inQuarters (n : ℕ) : ((n * quarter : ℕ) : ℚ) = n * magnitude.quarter * scale := by
    rw [Nat.cast_mul, quarterEq, mul_assoc, Magnitude.quarter]
  have lowMiddle := Nat.mul_le_mul_right quarter magnitude.low_le_middle
  have middleHigh := Nat.mul_lt_mul_of_pos_right magnitude.middle_lt_high quarterPos
  have below := Nat.div_mul_le_self (magnitude.interval.middle * quarter) unit
  have above := (Nat.div_lt_iff_lt_mul unitPos).mp
    (Nat.lt_succ_self (magnitude.interval.middle * quarter / unit))
  unfold ReadsBack
  rw [← Interval.precedes_scaled scalePos (inQuarters _) (inGrid _),
    ← Interval.precedes_scaled scalePos (inGrid _) (inQuarters _)]
  rcases gridPoint?_cases ratio with ⟨none, -, -⟩ | ⟨isBelow, down⟩ | ⟨isAbove, up⟩
  · rw [none] at found
    cases found
  · obtain rfl := Option.some.inj (isBelow.symm.trans found)
    exact ⟨down, .inl (Nat.lt_of_le_of_lt below middleHigh)⟩
  · obtain rfl := Option.some.inj (isAbove.symm.trans found)
    exact ⟨.inl (Nat.lt_of_le_of_lt lowMiddle above), up⟩

/-- A grid finer than three quarters of a unit has a point in the interval. -/
theorem exists_gridPoint? (notZero : magnitude.significand ≠ 0)
    (fine : (10 : ℚ) ^ place < 3 * magnitude.quarter) :
    ∃ point, magnitude.gridPoint? place = some point := by
  obtain ⟨quarter, unit, scale, ratio, scalePos, quarterEq, unitEq⟩ :=
    exists_scale (magnitude.exponent - 2) place
  rcases gridPoint?_cases ratio with ⟨-, notDown, notUp⟩ | ⟨isBelow, -⟩ | ⟨isAbove, -⟩
  · have coarse : 3 * quarter ≤ unit := by
      have down := Nat.not_lt.mp fun less => notDown (.inl less)
      have up := Nat.not_lt.mp fun less => notUp (.inl less)
      have width := Nat.mul_le_mul_right quarter (low_add_three_le_high notZero)
      rw [Nat.add_mul] at width up
      omega
    have scaled : 3 * magnitude.quarter * scale ≤ 10 ^ place * scale := by
      rw [mul_assoc, Magnitude.quarter, ← quarterEq, ← unitEq]
      exact_mod_cast coarse
    exact absurd (le_of_mul_le_mul_right scaled scalePos) (not_le.mpr fine)
  · exact ⟨_, isBelow⟩
  · exact ⟨_, isAbove⟩

end Grid

/-! ## The search -/

theorem ten_pow_le_two_pow {d n : ℕ} (atMost : 100000 * d ≤ 30103 * n) (small : n ≤ 1100) :
    10 ^ d ≤ 2 ^ (n + 4) := by
  have cubes : (10 ^ d) ^ 3 ≤ (2 ^ (n + 4)) ^ 3 :=
    calc
      (10 ^ d) ^ 3 = (10 ^ 3) ^ d := Nat.pow_right_comm ..
      _ ≤ (2 ^ 10) ^ d := Nat.pow_le_pow_left (by decide) d
      _ = 2 ^ (10 * d) := (Nat.pow_mul ..).symm
      _ ≤ 2 ^ ((n + 4) * 3) := Nat.pow_le_pow_right (by decide) (by omega)
      _ = (2 ^ (n + 4)) ^ 3 := Nat.pow_mul ..
  exact (Nat.pow_le_pow_iff_left (by decide)).mp cubes

theorem two_pow_le_ten_pow {d n : ℕ} (atMost : 30103 * n ≤ 100000 * d) (small : d ≤ 400) :
    2 ^ n ≤ 10 ^ d * 2 ^ 4 := by
  have powers : (2 ^ n) ^ 28 ≤ (10 ^ d * 2 ^ 4) ^ 28 :=
    calc
      (2 ^ n) ^ 28 = 2 ^ (n * 28) := (Nat.pow_mul ..).symm
      _ ≤ 2 ^ (93 * d + 4 * 28) := Nat.pow_le_pow_right (by decide) (by omega)
      _ = (2 ^ 93) ^ d * 2 ^ (4 * 28) := by rw [Nat.pow_add, Nat.pow_mul]
      _ ≤ (10 ^ 28) ^ d * 2 ^ (4 * 28) :=
        Nat.mul_le_mul_right _ (Nat.pow_le_pow_left (by decide) d)
      _ = (10 ^ d * 2 ^ 4) ^ 28 := by rw [Nat.mul_pow, Nat.pow_right_comm, Nat.pow_mul 2 4]
  exact (Nat.pow_le_pow_iff_left (by decide)).mp powers

theorem ten_zpow_le_two_zpow {n : ℤ} (least : -1100 ≤ n) (most : n ≤ 1100) :
    (10 : ℚ) ^ (n * 30103).fdiv 100000 ≤ 2 ^ (n + 4) := by
  rw [Int.fdiv_eq_ediv_of_nonneg _ (by decide)]
  generalize quotient : n * 30103 / 100000 = d
  rcases Int.le_total 0 n with nonneg | nonpos
  · obtain ⟨n, rfl⟩ := Int.eq_ofNat_of_zero_le nonneg
    obtain ⟨d, rfl⟩ := Int.eq_ofNat_of_zero_le (show 0 ≤ d by omega)
    exact_mod_cast ten_pow_le_two_pow (d := d) (n := n) (by omega) (by omega)
  · obtain ⟨n, rfl⟩ := Int.exists_eq_neg_ofNat nonpos
    obtain ⟨d, rfl⟩ := Int.exists_eq_neg_ofNat (show d ≤ 0 by omega)
    have inverses : (2 : ℚ) ^ n ≤ 10 ^ d * 2 ^ 4 := by
      exact_mod_cast two_pow_le_ten_pow (d := d) (n := n) (by omega) (by omega)
    calc
      (10 : ℚ) ^ (-d : ℤ) = 2 ^ n * (10 ^ d)⁻¹ * (2 ^ n)⁻¹ := by
        rw [zpow_neg, zpow_natCast]
        field_simp
      _ ≤ 10 ^ d * 2 ^ 4 * (10 ^ d)⁻¹ * (2 ^ n)⁻¹ := by gcongr
      _ = 2 ^ (-n + 4 : ℤ) := by
        rw [zpow_add₀ (by norm_num), zpow_neg, zpow_natCast]
        field_simp

theorem ten_zpow_lt_quarters {m : ℕ} {e : ℤ} (kept : Kept m e) (fits : e ≤ 971) :
    (10 : ℚ) ^ ((mk m e).ceilingPlace - 19) < 3 * (mk m e).quarter := by
  have bits : m.log2 < 53 := by
    by_cases zero : m = 0
    · rw [zero]
      decide
    · exact (Nat.log2_lt zero).mpr kept.significand_lt
  have least := kept.least_le
  have estimate := ten_zpow_le_two_zpow (n := m.log2 + 1 + e) (by omega) (by omega)
  have exponents : m.log2 + 1 + e + 4 ≤ e - 2 + (59 : ℕ) := by omega
  have place : (mk m e).ceilingPlace - 19 = ((m.log2 + 1 + e) * 30103).fdiv 100000 + -18 := by
    unfold ceilingPlace
    ring
  unfold quarter
  calc
    (10 : ℚ) ^ ((mk m e).ceilingPlace - 19) =
        10 ^ ((m.log2 + 1 + e) * 30103).fdiv 100000 * 10 ^ (-18 : ℤ) := by
      rw [place, zpow_add₀ (by norm_num)]
    _ ≤ 2 ^ (m.log2 + 1 + e + 4) * 10 ^ (-18 : ℤ) := by gcongr
    _ ≤ 2 ^ (e - 2 + (59 : ℕ)) * 10 ^ (-18 : ℤ) := by
      gcongr
      norm_num
    _ = 2 ^ 59 * 10 ^ (-18 : ℤ) * 2 ^ (e - 2) := by
      rw [two_zpow_add]
      ring
    _ < 3 * 2 ^ (e - 2) := by
      gcongr
      norm_num

/-- A search that comes to a grid with a point ends with a point of a grid. -/
theorem exists_search_eq {magnitude : Magnitude} {tries skipped : ℕ} {place : ℤ}
    (within : skipped < tries)
    (found : ∃ point, magnitude.gridPoint? (place - skipped) = some point) :
    ∃ point place', magnitude.gridPoint? place' = some point ∧
      magnitude.search tries place = ⟨point, place'⟩ := by
  induction tries generalizing skipped place with
  | zero => exact absurd within (Nat.not_lt_zero _)
  | succ tries ih =>
      unfold search
      split
      · rename_i point here
        exact ⟨point, place, here, rfl⟩
      · rename_i missed
        cases skipped with
        | zero =>
            obtain ⟨point, found⟩ := found
            rw [Nat.cast_zero, sub_zero, missed] at found
            cases found
        | succ skipped =>
            refine ih (Nat.lt_of_succ_lt_succ within) ?_
            rwa [sub_sub, add_comm, ← Nat.cast_succ]

theorem readsBack_shortest {m : ℕ} {e : ℤ} (kept : Kept m e) (fits : e ≤ 971) (notZero : m ≠ 0) :
    (mk m e).ReadsBack (mk m e).shortest.value := by
  have fine : ∃ point, (mk m e).gridPoint? ((mk m e).ceilingPlace - (19 : ℕ)) = some point :=
    exists_gridPoint? notZero (ten_zpow_lt_quarters kept fits)
  obtain ⟨point, place, found, digits⟩ := exists_search_eq (by decide : 19 < 20) fine
  unfold shortest
  rw [digits]
  exact readsBack_of_gridPoint? found

end EchoState.Binary64.Magnitude
