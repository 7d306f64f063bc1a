import EchoState.Proofs.Binary64.Exact

/-!
# Products in order

A product of two significands may reach below the least unit, so it is no whole number of units. It
is still rounded to the nearest significand at the place for its size, and a larger product is never
rounded to a smaller one: at one place the significands are in order, and a later place starts where
an earlier one ends.
-/

namespace EchoState.Binary64

open Float.Model Float.Model.UnpackedFloat

/-! ## The place of a number -/

/-- The exponent of the last unit that is left of a number when it is rounded. -/
def place (m : Nat) (e : ℤ) : ℤ :=
  max (m.log2 + e - 52) (-1074)

def droppedPlaces (m : Nat) (e : ℤ) : Nat :=
  (place m e - e).toNat

/-- The significand that is left of a number when it is rounded. -/
def significand (m : Nat) (e : ℤ) : Nat :=
  nearest m (droppedPlaces m e)

section Place

variable {m : Nat} {e : ℤ} (enough : 2 ^ 52 ≤ m ∨ e ≤ -1074)

include enough

theorem add_droppedPlaces : e + droppedPlaces m e = place m e := by
  have down : e ≤ place m e := by
    unfold place
    rcases enough with normal | small
    · have places : 52 ≤ m.log2 := (Nat.le_log2 (by omega)).mpr normal
      omega
    · omega
  unfold droppedPlaces
  omega

theorem significand_le : significand m e ≤ 2 ^ 53 := by
  have split := add_droppedPlaces enough
  apply nearest_le_of_log
  unfold place at split
  omega

theorem le_significand (above : place m e ≠ -1074) : 2 ^ 52 ≤ significand m e := by
  have split := add_droppedPlaces enough
  have log : m.log2 = 52 + droppedPlaces m e := by
    unfold place at split above
    omega
  have notZero : m ≠ 0 := by
    rintro rfl
    rw [Nat.log2_zero] at log
    omega
  exact le_nearest_of_log notZero log

/-- A number is rounded to the nearest significand at its place. -/
theorem exact_roundWithAccuracy (sign : Sign) :
    exact (roundWithAccuracy Format.binary64 sign m e .exact) =
      signed sign (significand m e * 2 ^ place m e) := by
  have least : -1074 ≤ place m e := le_max_right _ _
  have normal : place m e = -1074 ∨ 2 ^ 52 ≤ significand m e :=
    Decidable.or_iff_not_imp_left.mpr (le_significand enough)
  obtain ⟨-, same⟩ := kept_of_rounded sign least (significand_le enough) normal
  have shifted : shiftToTargetExponent Format.binary64 m e .exact =
      (ExtendedMantissa.ofMantissaAndAccuracy m .exact >>> droppedPlaces m e, place m e) := by
    rw [shiftToTargetExponent, targetExponent_eq, shiftToExponent]
    exact congrArg (Prod.mk _) (add_droppedPlaces enough)
  unfold roundWithAccuracy
  rw [shifted]
  dsimp only
  rw [(Dropped.shiftRight m _).roundedMantissa_eq]
  exact same

end Place

/-! ## Larger numbers -/

section Order

variable {m m' : Nat} {e e' : ℤ} (atMost : (m : ℚ) * 2 ^ e ≤ m' * 2 ^ e')

include atMost

theorem place_mono (positive : 0 < m) : place m e ≤ place m' e' := by
  have order : m.log2 + e ≤ m'.log2 + e' := by
    by_contra beyond
    have low : (2 : ℚ) ^ m.log2 ≤ m := by
      exact_mod_cast Nat.log2_self_le (Nat.ne_of_gt positive)
    have high : (m' : ℚ) < 2 ^ (m'.log2 + 1) := by exact_mod_cast Nat.lt_log2_self
    have less : (m' : ℚ) * 2 ^ e' < m * 2 ^ e := by
      calc
        (m' : ℚ) * 2 ^ e' < 2 ^ (m'.log2 + 1) * 2 ^ e' :=
          mul_lt_mul_of_pos_right high (two_zpow_pos e')
        _ = 2 ^ (e' + (m'.log2 + 1 : Nat)) := (two_zpow_add e' _).symm
        _ ≤ 2 ^ (e + (m.log2 : Nat)) := zpow_le_zpow_right₀ (by norm_num) (by push_cast; omega)
        _ = 2 ^ m.log2 * 2 ^ e := two_zpow_add e _
        _ ≤ m * 2 ^ e := mul_le_mul_of_nonneg_right low (two_zpow_pos e).le
    exact absurd atMost (not_le.mpr less)
  unfold place
  omega

/-- At one place, written out down to the lower of the two exponents, the significands are in
order. -/
theorem significand_mono (enough : 2 ^ 52 ≤ m ∨ e ≤ -1074) (enough' : 2 ^ 52 ≤ m' ∨ e' ≤ -1074)
    (samePlace : place m e = place m' e') : significand m e ≤ significand m' e' := by
  obtain ⟨u, more⟩ := Int.le.dest (min_le_left e e')
  obtain ⟨u', more'⟩ := Int.le.dest (min_le_right e e')
  have split := add_droppedPlaces enough
  have split' := add_droppedPlaces enough'
  have sameDrop : droppedPlaces m e + u = droppedPlaces m' e' + u' := by omega
  have written : m * 2 ^ u ≤ m' * 2 ^ u' := by
    have lowered : (m : ℚ) * 2 ^ u * 2 ^ min e e' ≤ m' * 2 ^ u' * 2 ^ min e e' := by
      rwa [mul_assoc, mul_assoc, ← two_zpow_add, ← two_zpow_add, more, more']
    exact_mod_cast le_of_mul_le_mul_right lowered (two_zpow_pos _)
  calc
    significand m e = nearest (m * 2 ^ u) (droppedPlaces m e + u) :=
      (nearest_mul_two_pow m _ u).symm
    _ ≤ nearest (m' * 2 ^ u') (droppedPlaces m e + u) := nearest_mono _ written
    _ = nearest (m' * 2 ^ u') (droppedPlaces m' e' + u') := by rw [sameDrop]
    _ = significand m' e' := nearest_mul_two_pow m' _ u'

/-- A larger number is not rounded to a smaller one. -/
theorem rounded_at_place_mono (positive : 0 < m) (enough : 2 ^ 52 ≤ m ∨ e ≤ -1074)
    (enough' : 2 ^ 52 ≤ m' ∨ e' ≤ -1074) :
    (significand m e : ℚ) * 2 ^ place m e ≤ significand m' e' * 2 ^ place m' e' := by
  rcases (place_mono atMost positive).lt_or_eq with before | same
  · have least : -1074 ≤ place m e := le_max_right _ _
    have most : (significand m e : ℚ) ≤ 2 ^ 53 := by exact_mod_cast significand_le enough
    have normal : (2 : ℚ) ^ 52 ≤ significand m' e' := by
      exact_mod_cast le_significand enough' (by omega)
    calc
      (significand m e : ℚ) * 2 ^ place m e ≤ 2 ^ 53 * 2 ^ place m e :=
        mul_le_mul_of_nonneg_right most (two_zpow_pos _).le
      _ = 2 ^ 52 * 2 ^ (place m e + (1 : Nat)) := by
        rw [two_zpow_add]
        ring
      _ ≤ 2 ^ 52 * 2 ^ place m' e' := by
        gcongr
        · norm_num
        · omega
      _ ≤ significand m' e' * 2 ^ place m' e' :=
        mul_le_mul_of_nonneg_right normal (two_zpow_pos _).le
  · rw [same]
    have inOrder := significand_mono atMost enough enough' same
    exact mul_le_mul_of_nonneg_right (by exact_mod_cast inOrder) (two_zpow_pos _).le

end Order

/-! ## Products -/

theorem IsKept.cases_of_nonneg {a : UnpackedFloat} (kept : IsKept a) (nonneg : 0 ≤ exact a) :
    exact a = 0 ∨ ∃ (m : Nat) (e : ℤ) (positive : 0 < m),
      a = .finite .positive m e positive ∧ Kept m e := by
  cases a with
  | notANumber => cases kept
  | infinity sign => cases kept
  | zero sign => exact Or.inl (exact_zero sign)
  | finite sign m e positive =>
      have size : (0 : ℚ) < m * 2 ^ e := mul_pos (Nat.cast_pos.mpr positive) (two_zpow_pos e)
      cases sign with
      | negative => exact absurd nonneg (not_le.mpr (neg_neg_of_pos size))
      | positive => exact Or.inr ⟨m, e, positive, rfl, kept⟩

/-- A larger factor does not make a smaller product with a number from zero up. -/
theorem exact_mul_mono {a a' b : UnpackedFloat} (aKept : IsKept a) (aKept' : IsKept a')
    (bKept : IsKept b) (aNonneg : 0 ≤ exact a) (atMost : exact a ≤ exact a')
    (bNonneg : 0 ≤ exact b) :
    exact (UnpackedFloat.mul Format.binary64 a b) ≤
      exact (UnpackedFloat.mul Format.binary64 a' b) := by
  have rounds := rounds_mul aKept bKept
  have rounds' := rounds_mul aKept' bKept
  have nonneg' : 0 ≤ exact a' * exact b := mul_nonneg (aNonneg.trans atMost) bNonneg
  have fromZero (none : exact a * exact b = 0) :
      exact (UnpackedFloat.mul Format.binary64 a b) ≤
        exact (UnpackedFloat.mul Format.binary64 a' b) :=
    (rounds.le onScale_zero none.le).trans (rounds'.ge onScale_zero nonneg')
  rcases aKept.cases_of_nonneg aNonneg with none | ⟨m, e, positive, rfl, kept⟩
  · exact fromZero (by rw [none, zero_mul])
  rcases bKept.cases_of_nonneg bNonneg with none | ⟨k, f, factorPositive, rfl, factorKept⟩
  · exact fromZero (by rw [none, mul_zero])
  rcases aKept'.cases_of_nonneg (aNonneg.trans atMost) with
    none | ⟨m', e', positive', rfl, kept'⟩
  · have size : (0 : ℚ) < m * 2 ^ e := mul_pos (Nat.cast_pos.mpr positive) (two_zpow_pos e)
    exact absurd atMost (not_le.mpr (none.trans_lt size))
  have enough := kept.product_enough factorKept positive factorPositive
  have enough' := kept'.product_enough factorKept positive' factorPositive
  have products : ((m * k : Nat) : ℚ) * 2 ^ (e + f) ≤ (m' * k : Nat) * 2 ^ (e' + f) := by
    have factor : (0 : ℚ) ≤ k * 2 ^ f := mul_nonneg (Nat.cast_nonneg k) (two_zpow_pos f).le
    have atMost : (m : ℚ) * 2 ^ e ≤ m' * 2 ^ e' := atMost
    calc
      ((m * k : Nat) : ℚ) * 2 ^ (e + f) = m * 2 ^ e * (k * 2 ^ f) := by
        rw [zpow_add₀ two_ne_zero]
        push_cast
        ring
      _ ≤ m' * 2 ^ e' * (k * 2 ^ f) := mul_le_mul_of_nonneg_right atMost factor
      _ = (m' * k : Nat) * 2 ^ (e' + f) := by
        rw [zpow_add₀ two_ne_zero]
        push_cast
        ring
  have inOrder :=
    rounded_at_place_mono products (Nat.mul_pos positive factorPositive) enough enough'
  refine (exact_roundWithAccuracy enough .positive).trans_le (inOrder.trans_eq ?_)
  exact (exact_roundWithAccuracy enough' .positive).symm

end EchoState.Binary64
