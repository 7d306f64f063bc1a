import EchoState.Decimal.Text
import EchoState.Proofs.Decimal.Shortest

/-!
# Reading decimal text

A text of digits with at most one point among them stands for a number, and the text of digits
without an exponent stands for the number that the digits have. The text with the fewest digits of a
number that binary64 has therefore reads back, zero included, so two such numbers with one text are
the same. A sign in front can be told from the digits behind it.
-/

namespace EchoState.Decimal

theorem toList_toString (n : ℕ) : (toString n).toList = Nat.toDigits 10 n := by
  rw [Nat.toString_eq_ofList_toDigits, String.toList_ofList]

theorem toList_zeros (count : ℕ) : (zeros count).toList = List.replicate count '0' := by
  unfold zeros
  rw [String.pushn_eq_repeat_push]
  induction count with
  | zero => rfl
  | succ count ih => rw [Nat.repeat, String.toList_push, ih, List.replicate_succ']

/-- The digits of a number behind as many zeros as it takes to fill the places. -/
def padded (places n : ℕ) : List Char :=
  List.replicate (places - (Nat.toDigits 10 n).length) '0' ++ Nat.toDigits 10 n

theorem ofDigitChars_padded (places n : ℕ) : Nat.ofDigitChars 10 (padded places n) 0 = n := by
  rw [padded, Nat.ofDigitChars_append, Nat.ofDigitChars_replicate_zero, Nat.mul_zero,
    Nat.ofDigitChars_ten_toDigits]

theorem length_padded {places n : ℕ} (some : 0 < places) (fits : n < 10 ^ places) :
    (padded places n).length = places := by
  have digits := (Nat.length_toDigits_le_iff (by decide) some).mpr fits
  rw [padded, List.length_append, List.length_replicate, Nat.sub_add_cancel digits]

theorem toList_pointed (coefficient places : ℕ) :
    (pointed coefficient places).toList =
      if places = 0 then Nat.toDigits 10 coefficient
      else Nat.toDigits 10 (coefficient / 10 ^ places) ++
        '.' :: padded places (coefficient % 10 ^ places) := by
  unfold pointed
  split
  · exact toList_toString coefficient
  · dsimp only
    rw [Nat.pow_eq, String.toList_append, String.toList_append, String.toList_append, toList_zeros,
      ← String.length_toList, toList_toString, toList_toString, List.append_assoc,
      List.append_assoc]
    rfl

/-! ## Characters -/

theorem isDigit_toDigits {n : ℕ} {c : Char} (listed : c ∈ Nat.toDigits 10 n) : c.isDigit = true :=
  Nat.isDigit_of_mem_toDigits (by decide) (by decide) listed

theorem isDigit_padded {places n : ℕ} {c : Char} (listed : c ∈ padded places n) :
    c.isDigit = true := by
  rcases List.mem_append.mp listed with zero | digit
  · rw [List.eq_of_mem_replicate zero]
    rfl
  · exact isDigit_toDigits digit

theorem mem_pointed {coefficient places : ℕ} {c : Char}
    (listed : c ∈ (pointed coefficient places).toList) : c.isDigit = true ∨ c = '.' := by
  rw [toList_pointed] at listed
  split at listed
  · exact .inl (isDigit_toDigits listed)
  · rcases List.mem_append.mp listed with whole | rest
    · exact .inl (isDigit_toDigits whole)
    · exact (List.mem_cons.mp rest).symm.imp_left isDigit_padded

theorem pointed_ne_empty (coefficient places : ℕ) : pointed coefficient places ≠ "" := by
  intro empty
  have chars := congrArg String.toList empty
  rw [toList_pointed] at chars
  split at chars
  · exact Nat.toDigits_ne_nil chars
  · exact List.append_ne_nil_of_left_ne_nil Nat.toDigits_ne_nil _ chars

theorem minus_notMem_pointed (coefficient places : ℕ) :
    '-' ∉ (pointed coefficient places).toList :=
  fun listed => absurd (mem_pointed listed) (by decide)

theorem toList_signed (negative : Bool) (text : String) :
    (signed negative text).toList = if negative then '-' :: text.toList else text.toList := by
  cases negative with
  | false => rfl
  | true => exact String.toList_append

theorem signed_ne_empty (negative : Bool) {text : String} (some : text ≠ "") :
    signed negative text ≠ "" := by
  intro empty
  cases negative with
  | false => exact some empty
  | true =>
      have chars := congrArg String.toList empty
      rw [toList_signed] at chars
      cases chars

/-- The characters that decimal numbers without an exponent are written with. -/
def numeric (c : Char) : Bool :=
  c.isDigit || c == '.' || c == '-'

theorem numeric_of_mem_signed {negative : Bool} {coefficient places : ℕ} {c : Char}
    (listed : c ∈ (signed negative (pointed coefficient places)).toList) : numeric c = true := by
  have unsigned (listed : c ∈ (pointed coefficient places).toList) : numeric c = true := by
    unfold numeric
    rcases mem_pointed listed with digit | rfl
    · rw [digit, Bool.true_or, Bool.true_or]
    · rfl
  rw [toList_signed] at listed
  split at listed
  · rcases List.mem_cons.mp listed with rfl | rest
    · rfl
    · exact unsigned rest
  · exact unsigned listed

/-- A sign can be told from a text that has none. -/
theorem signed_inj {negative negative' : Bool} {text text' : String} (unsigned : '-' ∉ text.toList)
    (unsigned' : '-' ∉ text'.toList) (same : signed negative text = signed negative' text') :
    negative = negative' ∧ text = text' := by
  have chars := congrArg String.toList same
  rw [toList_signed, toList_signed] at chars
  cases negative with
  | false =>
      cases negative' with
      | false => exact ⟨rfl, String.toList_inj.mp chars⟩
      | true =>
          have signed : text.toList = '-' :: text'.toList := chars
          exact absurd (signed ▸ List.mem_cons_self) unsigned
  | true =>
      cases negative' with
      | false =>
          have signed : '-' :: text.toList = text'.toList := chars
          exact absurd (signed ▸ List.mem_cons_self) unsigned'
      | true => exact ⟨rfl, String.toList_inj.mp (List.cons_injective chars)⟩

/-! ## Numbers -/

/-- The number that a text of digits with at most one point among them stands for. -/
def readPlain (text : String) : ℚ :=
  match text.toList.splitOn '.' with
  | [whole] => Nat.ofDigitChars 10 whole 0
  | [whole, fraction] =>
      Nat.ofDigitChars 10 whole 0 + Nat.ofDigitChars 10 fraction 0 / 10 ^ fraction.length
  | _ => 0

theorem readPlain_pointed (coefficient places : ℕ) :
    readPlain (pointed coefficient places) = coefficient / 10 ^ places := by
  have whole (n : ℕ) : '.' ∉ Nat.toDigits 10 n := fun listed =>
    absurd (isDigit_toDigits listed) (by decide)
  unfold readPlain
  rw [toList_pointed]
  by_cases none : places = 0
  · subst none
    rw [if_pos rfl, List.splitOn_eq_singleton (whole coefficient)]
    dsimp only
    rw [Nat.ofDigitChars_ten_toDigits, pow_zero, div_one]
  · have fraction : '.' ∉ padded places (coefficient % 10 ^ places) := fun listed =>
      absurd (isDigit_padded listed) (by decide)
    have fits : coefficient % 10 ^ places < 10 ^ places :=
      Nat.mod_lt _ (Nat.pow_pos (by decide))
    have parts : (coefficient : ℚ) =
        (coefficient / 10 ^ places : ℕ) * 10 ^ places + (coefficient % 10 ^ places : ℕ) := by
      exact_mod_cast (Nat.div_add_mod' coefficient (10 ^ places)).symm
    rw [if_neg none, List.splitOn_append_cons_self_of_not_mem (whole _),
      List.splitOn_eq_singleton fraction]
    dsimp only
    rw [Nat.ofDigitChars_ten_toDigits, ofDigitChars_padded,
      length_padded (Nat.pos_of_ne_zero none) fits, parts]
    field_simp

theorem readPlain_plain (digits : Digits) : readPlain digits.plain = digits.value := by
  have scale := Binary64.Magnitude.zpow_mul_toNat (b := 10) (by norm_num) digits.exponent
  unfold Digits.plain Digits.value
  rw [readPlain_pointed, Nat.pow_eq, Nat.cast_mul, Nat.cast_pow, Nat.cast_ofNat, ← scale]
  field_simp

end EchoState.Decimal

namespace EchoState.Binary64.Magnitude

theorem exists_pointed (magnitude : Magnitude) :
    ∃ coefficient places, magnitude.positional (-1) = Decimal.pointed coefficient places := by
  unfold positional
  rw [if_pos (by decide)]
  split
  · exact ⟨0, 0, rfl⟩
  · exact ⟨_, _, rfl⟩

variable {m m' : ℕ} {e e' : ℤ}

theorem readsBack_positional (kept : Kept m e) (fits : e ≤ 971) :
    (mk m e).ReadsBack (Decimal.readPlain ((mk m e).positional (-1))) := by
  unfold positional
  rw [if_pos (by decide)]
  split
  · rename_i zero
    obtain rfl : m = 0 := zero
    obtain rfl : e = leastExponent := kept.normal.resolve_left (by decide)
    have read : Decimal.readPlain "0" = 0 := by
      refine (Decimal.readPlain_pointed 0 0).trans ?_
      rw [Nat.cast_zero, zero_div]
    rw [read]
    exact readsBack_zero
  · rename_i notZero
    rw [Decimal.readPlain_plain]
    exact readsBack_shortest kept fits notZero

/-- Numbers that binary64 has are the same if their texts are. -/
theorem eq_of_positional_eq (kept : Kept m e) (fits : e ≤ 971) (kept' : Kept m' e')
    (fits' : e' ≤ 971) (same : (mk m e).positional (-1) = (mk m' e').positional (-1)) :
    mk m e = mk m' e' := by
  have back := readsBack_positional kept fits
  rw [same] at back
  exact eq_of_readsBack kept kept' back (readsBack_positional kept' fits')

end EchoState.Binary64.Magnitude
