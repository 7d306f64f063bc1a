import EchoState.Draws.Uniform
import EchoState.Proofs.Scalar.Tangent

/-!
# The range of the draws

A draw is a quotient of two rounded natural numbers, the divisor the larger, so it lies from zero to
one; the words whose quotient is rounded up to one are passed over. So every draw is one that a base
reservoir accepts.
-/

namespace EchoState.Binary64

open Float.Model Float.Model.UnpackedFloat

/-- A large natural number, shifted up and back down, times one. -/
theorem rounds_shifted {n : Nat} (count : Nat) (large : 2 ^ 52 ≤ n) (positive : 0 < n <<< count) :
    Rounds n (UnpackedFloat.mul Format.binary64 (.finite .positive (n <<< count) (-count) positive)
      (.finite .positive (10 ^ 0) 0 (by decide))) := by
  have enough : 2 ^ 52 ≤ n <<< count * 10 ^ 0 := by
    rw [Nat.shiftLeft_eq, pow_zero, mul_one]
    exact large.trans (Nat.le_mul_of_pos_right n (by positivity))
  have rounds := rounds_roundWithAccuracy .positive (e := -count + 0)
    (Cut.whole (n <<< count * 10 ^ 0)) (Or.inl enough)
  have same : signed .positive (((n <<< count * 10 ^ 0 : Nat) : ℚ) * 2 ^ (-count + 0 : ℤ)) = n := by
    rw [signed, Nat.shiftLeft_eq, add_zero, zpow_neg, zpow_natCast]
    push_cast
    field_simp
  rw [same] at rounds
  exact rounds

theorem rounds_ofNat (n : Nat) : ∃ a, value (Float.ofNat n) = repacked a ∧ Rounds n a := by
  by_cases small : n < 2 ^ 53
  · -- a word of 53 bits is exact, and so is its product with one
    have word : n.toUInt64.toNat = n := Nat.mod_eq_of_lt (Nat.lt_trans small (by decide))
    have exactly := within_toFloat (n := n.toUInt64) (by rw [word]; exact onScale_natCast small)
    rw [word] at exactly
    obtain ⟨finite, lower, upper⟩ := exactly
    have product : Float.ofNat n = n.toUInt64.toFloat * 1.0 := by
      show Float.ofScientific n false 0 = _
      unfold Float.ofScientific
      rw [dif_pos ⟨small, by decide⟩]
      rfl
    have one : amount 1.0 = 1 := by with_unfolding_all decide
    have oneFinite : Scalar.finite (1.0 : Float) = true := finite_one
    have rounds := rounds_amount_mul finite oneFinite
    rw [le_antisymm upper lower, one, mul_one] at rounds
    exact ⟨_, by rw [product, value_mul], rounds⟩
  · have some : n ≠ 0 := by omega
    have shifted : 0 < n <<< Format.binary64.mantissaBits := by
      rw [Nat.shiftLeft_eq]
      positivity
    refine ⟨_, ?_, rounds_shifted Format.binary64.mantissaBits (by omega) shifted⟩
    have largest : (0 : ℤ) ≤ 2 ^ Format.binary64.exponentBits := by positivity
    show value (Float.ofScientific n false 0) = _
    unfold Float.ofScientific
    rw [dif_neg (fun both => small both.1)]
    show repacked (UnpackedFloat.ofScientific Format.binary64 n 0) = _
    unfold UnpackedFloat.ofScientific
    rw [dif_neg some, if_neg (by decide), if_neg (by omega), if_pos (by decide)]
    rfl

theorem within_ofNat {n : Nat} {lower upper : ℚ} (lowerOn : OnScale lower) (upperOn : OnScale upper)
    (above : lower ≤ n) (below : n ≤ upper) : Within (Float.ofNat n) (some ⟨lower, upper⟩) := by
  obtain ⟨a, same, rounds⟩ := rounds_ofNat n
  exact within_of_rounds same rounds lowerOn upperOn above below

end EchoState.Binary64

namespace EchoState.Draws

open Binary64

/-- A number that a base reservoir accepts as a draw. -/
def IsUniform (u : Float) : Prop :=
  Scalar.le 0 u = true ∧ Scalar.lt u 1 = true

theorem within_fraction (word : UInt64) : Within (fraction word) (some ⟨0, 1⟩) := by
  have most : word.toNat % Nat.pow 2 63 ≤ 2 ^ 63 := (Nat.mod_lt _ (by decide)).le
  have power := Elementary.onScale_two_pow (k := 63) (by norm_num)
  obtain ⟨upperFinite, upperLeast, upperMost⟩ :=
    within_ofNat (n := word.toNat % Nat.pow 2 63) onScale_zero power (by positivity)
      (by exact_mod_cast most)
  obtain ⟨lowerFinite, lowerLeast, lowerMost⟩ :=
    within_ofNat (n := Nat.pow 2 63) power power (by norm_num) (by norm_num)
  dsimp only at upperLeast upperMost lowerLeast lowerMost
  have positive : 0 < amount (Float.ofNat (Nat.pow 2 63)) :=
    lt_of_lt_of_le (by norm_num) lowerLeast
  refine within_of_rounds (value_div _ _) (rounds_amount_div upperFinite lowerFinite positive.ne')
    onScale_zero (by simpa using onScale_natCast (n := 1) (by norm_num)) ?_ ?_
  · exact div_nonneg upperLeast positive.le
  · rw [div_le_one positive]
    exact upperMost.trans lowerLeast

theorem isUniform_fraction {word : UInt64} (notOne : ¬(fraction word == 1) = true) :
    IsUniform (fraction word) := by
  obtain ⟨finite, lower, upper⟩ := within_fraction word
  have atLeast : Scalar.le 0 (fraction word) := (zero_le_iff finite).mpr lower
  have atMost : Scalar.le (fraction word) 1 := by
    rw [le_iff_amount_le finite finite_one, amount_one]
    exact upper
  refine ⟨atLeast, OrderedScalar.lt_iff.mpr ⟨atMost, fun back => notOne ?_⟩⟩
  exact OrderedScalar.eq_iff.mpr ⟨atMost, back⟩

theorem isUniform_draw (tries : Nat) (history : Array UInt64) :
    IsUniform (draw tries history).1 := by
  induction tries generalizing history with
  | zero =>
      show IsUniform 0
      exact ⟨by with_unfolding_all decide, by with_unfolding_all decide⟩
  | succ tries ih =>
      unfold draw
      dsimp only
      split
      · exact ih _
      · exact isUniform_fraction ‹_›

theorem isUniform_drawMany (count : Nat) (history : Array UInt64) :
    ∀ u ∈ (drawMany count history).1, IsUniform u := by
  induction count with
  | zero => exact fun u none => absurd none (Vector.not_mem_empty u)
  | succ count ih =>
      intro u isDraw
      unfold drawMany at isDraw
      rcases Vector.mem_push.mp isDraw with earlier | rfl
      · exact ih u earlier
      · exact isUniform_draw longLag (drawMany count history).2

theorem isUniform_uniforms (seed : Int) (count : Nat) : ∀ u ∈ uniforms seed count, IsUniform u :=
  isUniform_drawMany count (register seed)

end EchoState.Draws
