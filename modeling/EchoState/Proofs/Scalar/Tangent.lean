import EchoState.Proofs.Scalar.Enclosure

/-!
# The activation stays finite

The hyperbolic tangent is finite for every finite argument. Near zero its quotient of polynomials is
enclosed at once. Elsewhere it goes through the exponential, whose argument is first brought near
zero by a whole number of logarithms of two: the rounded product that chooses this number still
tells how far the argument can be from it, so the remainder is enclosed for each number apart.
-/

namespace EchoState.Binary64

open Float.Model Float.Model.UnpackedFloat

theorem value_toFloat (n : UInt64) :
    value n.toFloat = repacked (UnpackedFloat.normalize Format.binary64 n.toNat 0 .positive) :=
  rfl

theorem within_toFloat {n : UInt64} (onScale : OnScale n.toNat) :
    Within n.toFloat (some ⟨n.toNat, n.toNat⟩) := by
  have rounds := rounds_normalize n.toNat 0
  rw [zpow_zero, mul_one, Int.cast_natCast] at rounds
  exact within_of_rounds (value_toFloat n) rounds onScale onScale (le_refl _) (le_refl _)

/-- The whole part of a value from zero up. -/
theorem toInt_bounds {a : UnpackedFloat} (isKept : IsKept a) (nonneg : 0 ≤ exact a)
    (least most : ℤ) :
    ∃ n : Nat, a.toInt least most = n ∧ (n : ℚ) ≤ exact a ∧ exact a < n + 1 := by
  cases a with
  | notANumber => cases isKept
  | infinity sign => cases isKept
  | zero sign => exact ⟨0, rfl, by simp [exact_zero], by simp [exact_zero]⟩
  | finite sign m e positive =>
      cases sign with
      | negative =>
          have above : 0 < (m : ℚ) * 2 ^ e :=
            mul_pos (by exact_mod_cast positive) (two_zpow_pos e)
          exact absurd nonneg (not_le.mpr (neg_neg_of_pos above))
      | positive =>
          have cut := (Cut.whole (m * 2 ^ e.toNat)).shiftRight (-e).toNat
          have same : ((m * 2 ^ e.toNat : Nat) : ℚ) / 2 ^ (-e).toNat =
              exact (.finite .positive m e positive) := by
            rw [exact, signed, ← mkRat_eq_size, Rat.mkRat_eq_div]
            push_cast
            rfl
          rw [same] at cut
          refine ⟨_, ?_, cut.le, cut.lt⟩
          have shift : (0 - (e - ((e - 0).toNat : ℤ))).toNat = (-e).toNat := by omega
          unfold UnpackedFloat.toInt roundToInt decreaseExponent shiftToExponent
          dsimp only
          rw [shift, sub_zero, Nat.shiftLeft_eq]
          rfl

theorem toNat_ofNatClamp {n : Nat} (small : n < UInt64.size) : (UInt64.ofNatClamp n).toNat = n := by
  rw [UInt64.ofNatClamp, dif_pos small]
  rfl

theorem toUInt64_eq (y : Float) :
    y.toUInt64 = UInt64.ofNatClamp ((value y).toInt 0 (UInt64.size - 1)).toNat :=
  rfl

/-- The whole part of a number from zero up, as a machine word. -/
theorem toUInt64_bounds {y : Float} (finite : Scalar.finite y) (nonneg : 0 ≤ amount y)
    (small : amount y < 2 ^ 63) :
    (y.toUInt64.toNat : ℚ) ≤ amount y ∧ amount y < y.toUInt64.toNat + 1 := by
  obtain ⟨n, converted, low, high⟩ :=
    toInt_bounds (isKept_value finite) nonneg 0 (UInt64.size - 1)
  have fits : n < UInt64.size := by
    have below : (n : ℚ) < 2 ^ 63 := lt_of_le_of_lt low small
    have below : n < 2 ^ 63 := by exact_mod_cast below
    exact Nat.lt_trans below (by decide)
  rw [toUInt64_eq, converted, Int.toNat_natCast, toNat_ofNatClamp fits]
  exact ⟨low, high⟩

end EchoState.Binary64

namespace EchoState.Elementary

open Binary64

theorem within_tanhNearZero {x : Float} (near : Within x (some ⟨-5 / 8, 5 / 8⟩)) :
    Within (tanhNearZero x) (some ⟨-7 / 8, 7 / 8⟩) := by
  have square : Within (x * x) (some ⟨-1 / 2, 1 / 2⟩) :=
    (near.mul near).of_inside (by with_unfolding_all decide)
  unfold tanhNearZero
  dsimp only
  apply Within.of_inside
  · repeat' first
      | with_reducible assumption
      | with_reducible apply Within.add
      | with_reducible apply Within.mul
      | with_reducible apply Within.div
      | exact Within.constant _
  · with_unfolding_all decide

theorem amount_half : amount 0.5 = 1 / 2 := by
  with_unfolding_all decide

/-- The whole part of a multiple of a number that was rounded twice on its way still tells the
number up to half a unit and a bit: a rounded result is on the right side of every half. -/
theorem nearest_multiple {x c : Float} (argument : Within x (some ⟨5 / 4, 40⟩))
    (factor : Within c (some ⟨14426 / 10000, 14427 / 10000⟩)) :
    let p := (x * c + 0.5).toUInt64.toNat
    p < 64 ∧
      Within x (some ⟨(p - 257 / 512) / (14427 / 10000), (p + 1 / 2) / (14426 / 10000)⟩) := by
  intro p
  have product : Within (x * c) (some ⟨1, 58⟩) :=
    (argument.mul factor).of_inside (by with_unfolding_all decide)
  have sum : Within (x * c + 0.5) (some ⟨1, 59⟩) :=
    (product.add (.constant 0.5)).of_inside (by with_unfolding_all decide)
  obtain ⟨xFinite, xLower, _⟩ := argument
  obtain ⟨cFinite, cLower, cUpper⟩ := factor
  obtain ⟨sumFinite, sumLower, sumUpper⟩ := sum
  dsimp only at xLower cLower cUpper sumLower sumUpper
  have whole : (p : ℚ) ≤ amount (x * c + 0.5) ∧ amount (x * c + 0.5) < p + 1 :=
    toUInt64_bounds sumFinite (by linarith) (by linarith)
  have small : p < 64 := by
    have upTo : (p : ℚ) < 64 := by linarith
    exact_mod_cast upTo
  have onScale (k : ℤ) (range : |k| ≤ 1024) : OnScale (p + k / 1024) := by
    have size : |(p : ℤ) * 2 ^ 30 + k * 2 ^ 20| < 2 ^ 53 := by
      rw [abs_le] at range
      rw [abs_lt]
      constructor <;> omega
    have same : (p : ℚ) + k / 1024 = ((p * 2 ^ 30 + k * 2 ^ 20 : ℤ) : ℚ) / 2 ^ 30 := by
      push_cast
      ring
    rw [same]
    exact onScale_div size
  have halfFinite : Scalar.finite (0.5 : Float) = true := by with_unfolding_all decide
  have addRounds := rounds_amount_add product.1 halfFinite
  have mulRounds := rounds_amount_mul xFinite cFinite
  rw [amount_half] at addRounds
  -- from the sum back to the product, and from the product back to its factors
  have sumBelow := lt_of_amount_lt (value_add _ _) addRounds sumFinite (onScale 1024 (by norm_num))
    (by push_cast; linarith)
  have sumAbove := lt_of_lt_amount (value_add _ _) addRounds sumFinite (onScale (-1) (by norm_num))
    (by push_cast; linarith)
  push_cast at sumBelow sumAbove
  have below := lt_of_amount_lt (value_mul _ _) mulRounds product.1 (onScale 512 (by norm_num))
    (by push_cast; linarith)
  have above := lt_of_lt_amount (value_mul _ _) mulRounds product.1 (onScale (-514) (by norm_num))
    (by push_cast; linarith)
  push_cast at below above
  have nonneg : 0 ≤ amount x := by linarith
  have least := mul_le_mul_of_nonneg_left cLower nonneg
  have most := mul_le_mul_of_nonneg_left cUpper nonneg
  refine ⟨small, xFinite, ?_, ?_⟩
  · rw [div_le_iff₀ (by norm_num)]
    linarith
  · rw [le_div_iff₀ (by norm_num)]
    linarith

/-- What is left of an argument without the nearest multiple of the logarithm of two. -/
theorem remainder_inside : ∀ p : Fin 64,
    Interval.inside
      (Interval.sub (some ⟨(p - 257 / 512) / (14427 / 10000), (p + 1 / 2) / (14426 / 10000)⟩)
        (Interval.mul (some ⟨p, p⟩) (Interval.ofConstant logTwoHigh)))
      ⟨-3 / 8, 3 / 8⟩ = true := by
  with_unfolding_all decide

theorem twoPower_eq : ∀ p : Fin 64, twoPower (.ofNat p) = (UInt64.ofNat (2 ^ p.val)).toFloat := by
  with_unfolding_all decide

theorem onScale_two_pow {k : Nat} (small : k ≤ 971) : OnScale (2 ^ k) := by
  refine ⟨1, k, by norm_num, by omega, by exact_mod_cast small, ?_⟩
  rw [Int.cast_one, one_mul, zpow_natCast]

theorem within_twoPower {power : UInt64} (small : power.toNat < 64) :
    Within (twoPower power) (some ⟨2 ^ power.toNat, 2 ^ power.toNat⟩) := by
  have exponent : (UInt64.ofNat (2 ^ power.toNat)).toNat = 2 ^ power.toNat :=
    UInt64.toNat_ofNat_of_lt' (Nat.pow_lt_pow_right (by decide) small)
  have onScale : OnScale (UInt64.ofNat (2 ^ power.toNat)).toNat := by
    rw [exponent]
    push_cast
    exact onScale_two_pow (by omega)
  have same := twoPower_eq ⟨power.toNat, small⟩
  dsimp only at same
  rw [UInt64.ofNat_toNat] at same
  have exactly := within_toFloat onScale
  rw [exponent] at exactly
  push_cast at exactly
  rw [same]
  exact exactly

theorem within_evenPart {t : Float} (square : Within t (some ⟨-1 / 4, 1 / 4⟩)) :
    Within (evenPart t) (some ⟨-1 / 16, 1 / 16⟩) := by
  unfold evenPart
  apply Within.of_inside
  · repeat' first
      | with_reducible assumption
      | with_reducible apply Within.add
      | with_reducible apply Within.mul
      | exact Within.constant _
  · with_unfolding_all decide

/-- The exponential of a remainder, before it is scaled. -/
theorem within_unscaled {high low : Float} (highWithin : Within high (some ⟨-3 / 8, 3 / 8⟩))
    (lowWithin : Within low (some ⟨-1 / 1024, 1 / 1024⟩)) :
    let r := high - low
    let c := r - evenPart (r * r)
    Within (1 - ((low - r * c / (2 - c)) - high)) (some ⟨1 / 4, 2⟩) := by
  intro r c
  have rWithin : Within r (some ⟨-7 / 16, 7 / 16⟩) :=
    (highWithin.sub lowWithin).of_inside (by with_unfolding_all decide)
  have square : Within (r * r) (some ⟨-1 / 4, 1 / 4⟩) :=
    (rWithin.mul rWithin).of_inside (by with_unfolding_all decide)
  have cWithin : Within c (some ⟨-1 / 2, 1 / 2⟩) :=
    (rWithin.sub (within_evenPart square)).of_inside (by with_unfolding_all decide)
  have quotient := (rWithin.mul cWithin).div ((Within.constant 2).sub cWithin)
  exact ((Within.constant 1).sub ((lowWithin.sub quotient).sub highWithin)).of_inside
    (by with_unfolding_all decide)

/-- The exponential lies below twice the power of two that was split off, which the argument
bounds. -/
theorem within_exp {x : Float} (argument : Within x (some ⟨5 / 4, 40⟩)) :
    ∃ p : Nat, (p : ℚ) - 257 / 512 ≤ amount x * (14427 / 10000) ∧ p < 64 ∧
      Within (exp x) (some ⟨1, 2 ^ (p + 1)⟩) := by
  have factor : Within (1.44269504088896338700 : Float) (some ⟨14426 / 10000, 14427 / 10000⟩) :=
    (Within.constant _).of_inside (by with_unfolding_all decide)
  obtain ⟨small, close⟩ := nearest_multiple argument factor
  unfold exp
  dsimp only
  generalize (x * 1.44269504088896338700 + 0.5).toUInt64 = power at small close
  have whole : Within power.toFloat (some ⟨power.toNat, power.toNat⟩) :=
    within_toFloat (onScale_natCast (by omega))
  have range : Within power.toFloat (some ⟨0, 63⟩) := by
    obtain ⟨finite, lower, upper⟩ := whole
    have most : (power.toNat : ℚ) ≤ 63 := by exact_mod_cast Nat.le_of_lt_succ small
    exact ⟨finite, le_trans (Nat.cast_nonneg _) lower, le_trans upper most⟩
  have high := (close.sub (whole.mul (.constant logTwoHigh))).of_inside
    (remainder_inside ⟨power.toNat, small⟩)
  have low : Within (power.toFloat * logTwoLow) (some ⟨-1 / 1024, 1 / 1024⟩) :=
    (range.mul (.constant _)).of_inside (by with_unfolding_all decide)
  obtain ⟨_, lower, upper⟩ := close
  obtain ⟨unscaledFinite, unscaledLower, unscaledUpper⟩ := within_unscaled high low
  obtain ⟨scaleFinite, scaleLower, scaleUpper⟩ := within_twoPower small
  have atLeast := argument.2.1
  dsimp only at lower upper unscaledLower unscaledUpper scaleLower scaleUpper atLeast
  rw [div_le_iff₀ (by norm_num)] at lower
  rw [le_div_iff₀ (by norm_num)] at upper
  have some : 2 ≤ power.toNat := by
    have above : (1 : ℚ) < power.toNat := by linarith
    exact_mod_cast above
  have four : (4 : ℚ) ≤ amount (twoPower power) := by
    calc
      (4 : ℚ) = 2 ^ 2 := by norm_num
      _ ≤ 2 ^ power.toNat := pow_le_pow_right₀ (by norm_num) some
      _ ≤ amount (twoPower power) := scaleLower
  refine ⟨power.toNat, lower, small, ?_⟩
  refine within_of_rounds (value_mul _ _) (rounds_amount_mul unscaledFinite scaleFinite)
    (by simpa using onScale_natCast (n := 1) (by norm_num)) (onScale_two_pow (by omega)) ?_ ?_
  · calc
      (1 : ℚ) = 1 / 4 * 4 := by norm_num
      _ ≤ _ := mul_le_mul unscaledLower four (by norm_num) (by linarith)
  · calc
      _ ≤ (2 : ℚ) * 2 ^ power.toNat :=
        mul_le_mul unscaledUpper scaleUpper (by linarith) (by norm_num)
      _ = 2 ^ (power.toNat + 1) := (pow_succ' 2 _).symm

theorem onScale_two_pow_inv {k : Nat} (small : k ≤ 1074) : OnScale (1 / 2 ^ k) := by
  refine ⟨1, -k, by norm_num, by omega, by omega, ?_⟩
  rw [Int.cast_one, one_mul, zpow_neg, zpow_natCast, one_div]

/-- Away from zero the tangent of a size is one without a number that is at least the inverse of the
exponential's upper bound, and at most one. -/
theorem within_tanhFromExp {x : Float} {most top : ℚ} (argument : Within x (some ⟨5 / 4, most⟩))
    (small : most ≤ 40) (onScale : OnScale top)
    (reaches : ∀ p : Nat, p - 257 / 512 ≤ most * (14427 / 10000) → 1 - 1 / 2 ^ (p + 1) ≤ top) :
    Within (1 - 2 / (exp x + 1)) (some ⟨0, top⟩) := by
  obtain ⟨finite, lower, upper⟩ := argument
  dsimp only at lower upper
  obtain ⟨p, bounded, few, expFinite, expLower, expUpper⟩ :=
    within_exp ⟨finite, lower, upper.trans small⟩
  dsimp only at expLower expUpper
  have two : amount 2 = 2 := by with_unfolding_all decide
  have oneOn : OnScale 1 := by simpa using onScale_natCast (n := 1) (by norm_num)
  have twoOn : OnScale 2 := by simpa using onScale_natCast (n := 2) (by norm_num)
  have twoFinite : Scalar.finite (2 : Float) = true := by with_unfolding_all decide
  have power : (2 : ℚ) ≤ 2 ^ (p + 1) := by
    calc
      (2 : ℚ) = 2 ^ 1 := (pow_one 2).symm
      _ ≤ 2 ^ (p + 1) := pow_le_pow_right₀ (by norm_num) (by omega)
  have sum : Within (exp x + 1) (some ⟨2, 2 ^ (p + 2)⟩) := by
    refine within_of_rounds (value_add _ _) (rounds_amount_add expFinite finite_one) twoOn
      (onScale_two_pow (by omega)) ?_ ?_
    · rw [amount_one]
      linarith
    · rw [amount_one, pow_succ]
      linarith
  obtain ⟨sumFinite, sumLower, sumUpper⟩ := sum
  dsimp only at sumLower sumUpper
  have positive : 0 < amount (exp x + 1) := by linarith
  have quotient : Within (2 / (exp x + 1)) (some ⟨1 / 2 ^ (p + 1), 1⟩) := by
    refine within_of_rounds (value_div _ _) (rounds_amount_div twoFinite sumFinite positive.ne')
      (onScale_two_pow_inv (by omega)) oneOn ?_ ?_
    · rw [two, div_le_div_iff₀ (by positivity) positive, one_mul, ← pow_succ']
      exact sumUpper
    · rw [two, div_le_iff₀ positive, one_mul]
      exact sumLower
  obtain ⟨quotientFinite, quotientLower, quotientUpper⟩ := quotient
  dsimp only at quotientLower quotientUpper
  have covers := reaches p (bounded.trans (mul_le_mul_of_nonneg_right upper (by norm_num)))
  refine within_of_rounds (value_sub _ _) (rounds_amount_sub finite_one quotientFinite)
    onScale_zero onScale ?_ ?_
  · rw [amount_one]
    linarith
  · rw [amount_one]
    linarith

/-- The tangent of a finite number is bounded by what bounds the part that goes through the
exponential, unless that is smaller than the bound of the part near zero. -/
theorem within_tanh {x : Float} {top : ℚ} (finite : Scalar.finite x) (least : 7 / 8 ≤ top)
    (fromExp : 5 / 8 ≤ |amount x| → |amount x| ≤ 20 →
      Within (1 - 2 / (exp (2 * Scalar.abs x) + 1)) (some ⟨0, top⟩))
    (atOne : 20 ≤ |amount x| → 1 ≤ top) : Within (tanh x) (some ⟨-top, top⟩) := by
  have sizeFinite := finite_abs finite
  have size := amount_abs x
  have fiveEighths : amount 0.625 = 5 / 8 := by with_unfolding_all decide
  have bound : Scalar.finite (0.625 : Float) = true := by with_unfolding_all decide
  have twenty : amount 20 = 20 := by with_unfolding_all decide
  have twentyFinite : Scalar.finite (20 : Float) = true := by with_unfolding_all decide
  unfold tanh
  dsimp only
  split
  · rename_i far
    have atLeast : 5 / 8 ≤ |amount x| := by
      rw [← fiveEighths, ← size]
      exact (le_iff_amount_le bound sizeFinite).mp (decide_eq_true far)
    have result : Within (if x.abs < 20 then 1 - 2 / (exp (2 * x.abs) + 1) else 1)
        (some ⟨0, top⟩) := by
      split
      · rename_i below
        refine fromExp atLeast ?_
        rw [← size, ← twenty]
        exact ((lt_iff_amount_lt sizeFinite twentyFinite).mp (decide_eq_true below)).le
      · rename_i above
        have reached : 20 ≤ |amount x| := by
          rw [← size, ← twenty, ← not_lt]
          intro below
          exact above (of_decide_eq_true ((lt_iff_amount_lt sizeFinite twentyFinite).mpr below))
        exact ⟨finite_one, by rw [amount_one]; norm_num, amount_one.trans_le (atOne reached)⟩
    obtain ⟨resultFinite, resultLower, resultUpper⟩ := result
    dsimp only at resultLower resultUpper
    split
    · refine ⟨finite_neg resultFinite, ?_, ?_⟩
      · rw [amount_neg]
        exact neg_le_neg resultUpper
      · rw [amount_neg]
        dsimp only
        linarith
    · exact ⟨resultFinite, by dsimp only; linarith, resultUpper⟩
  · rename_i near
    have below : |amount x| < 5 / 8 := by
      rw [← size, ← fiveEighths, ← not_le]
      intro atLeast
      exact near (of_decide_eq_true ((le_iff_amount_le bound sizeFinite).mpr atLeast))
    obtain ⟨lower, upper⟩ := abs_lt.mp below
    split
    · exact ⟨finite, by dsimp only; linarith, by dsimp only; linarith⟩
    · have nearZero : Within x (some ⟨-5 / 8, 5 / 8⟩) :=
        ⟨finite, by dsimp only; linarith, by dsimp only; linarith⟩
      obtain ⟨resultFinite, resultLower, resultUpper⟩ := within_tanhNearZero nearZero
      dsimp only at resultLower resultUpper
      exact ⟨resultFinite, by dsimp only; linarith, by dsimp only; linarith⟩

/-- Twice a size from five eighths on, for the exponential. -/
theorem within_doubled {x : Float} {most : ℚ} (finite : Scalar.finite x)
    (far : 5 / 8 ≤ |amount x|) (below : |amount x| ≤ most)
    (fits : Interval.inside (Interval.mul (Interval.ofConstant 2) (some ⟨5 / 8, most⟩))
      ⟨5 / 4, 2 * most⟩ = true) :
    Within (2 * Scalar.abs x) (some ⟨5 / 4, 2 * most⟩) := by
  have size : Within (Scalar.abs x) (some ⟨5 / 8, most⟩) := by
    refine ⟨finite_abs finite, ?_, ?_⟩
    · rw [amount_abs]
      exact far
    · rw [amount_abs]
      exact below
  exact ((Within.constant 2).mul size).of_inside fits

theorem within_tanh_of_finite {x : Float} (finite : Scalar.finite x) :
    Within (tanh x) (some ⟨-1, 1⟩) := by
  refine within_tanh finite (by norm_num) (fun far below => ?_) (fun _ => le_refl 1)
  have doubled := within_doubled finite far below (by with_unfolding_all decide)
  refine within_tanhFromExp doubled (by norm_num)
    (by simpa using onScale_natCast (n := 1) (by norm_num)) fun p _ => ?_
  have positive : (0 : ℚ) < 1 / 2 ^ (p + 1) := by positivity
  linarith

/-- Up to eighteen the hyperbolic tangent is not rounded to one. -/
theorem within_tanh_of_le_eighteen {x : Float} (finite : Scalar.finite x)
    (small : |amount x| ≤ 18) :
    Within (tanh x) (some ⟨-(1 - 1 / 2 ^ 53), 1 - 1 / 2 ^ 53⟩) := by
  refine within_tanh finite (by norm_num) (fun far _ => ?_) (fun large => ?_)
  · have doubled := within_doubled finite far small (by with_unfolding_all decide)
    refine within_tanhFromExp doubled (by norm_num)
      ⟨2 ^ 53 - 1, -53, by norm_num, by norm_num, by norm_num, by norm_num⟩ fun p bounded => ?_
    have few : p + 1 ≤ 53 := by
      have below : (p : ℚ) < 53 := by linarith
      have below : p < 53 := by exact_mod_cast below
      omega
    have inverse : (1 : ℚ) / 2 ^ 53 ≤ 1 / 2 ^ (p + 1) :=
      one_div_le_one_div_of_le (by positivity) (pow_le_pow_right₀ (by norm_num) few)
    linarith
  · linarith

theorem finite_tanh {x : Float} (finite : Scalar.finite x) : Scalar.finite (tanh x) :=
  (within_tanh_of_finite finite).1

end EchoState.Elementary
