import EchoState.Proofs.Binary64.Bits
import EchoState.Proofs.Decimal.Text

/-!
# Legible scalars

A scalar is legible when its plain text tells the value and keeps clear of the characters that
stand between values. Binary64 numbers are legible: a finite number is written with digits, a point
and a sign, and its fewest digits read back, while the other values have letters in their texts.
-/

namespace EchoState

/-- The same value, where everything that is no number is one value. -/
def Scalar.Same {α : Type} [Scalar α] (x y : α) : Prop :=
  x = y ∨ isNaN x = true ∧ isNaN y = true

def delimiters : List Char :=
  ['[', ']', ',', ' ', '\n']

/-- A scalar whose fewest digits can be told from the characters between values, and tell the
value. -/
class LegibleScalar (α : Type) [Scalar α] [Legible α] : Prop where
  positional_ne_empty : ∀ x : α, Legible.positional (-1) x ≠ ""
  delimiter_notMem : ∀ (x : α) {c : Char}, c ∈ delimiters →
    c ∉ (Legible.positional (-1) x).toList
  same_of_positional_eq : ∀ {x y : α},
    Legible.positional (-1) x = Legible.positional (-1) y → Scalar.Same x y

end EchoState

namespace EchoState.Binary64

open Float.Model Float.Model.UnpackedFloat

theorem negative_injective {s t : Sign} (same : (s == .negative) = (t == .negative)) : s = t := by
  cases s <;> cases t <;> first | rfl | cases same

theorem kind_injective {a b : UnpackedFloat} (same : kind a = kind b) : a = b := by
  cases a with
  | notANumber =>
      cases b with
      | notANumber => rfl
      | _ => cases same
  | infinity sign =>
      cases b with
      | infinity sign' => rw [negative_injective (Value.infinite.inj same)]
      | _ => cases same
  | zero sign =>
      cases b with
      | zero sign' => rw [negative_injective (Value.finite.inj same).1]
      | finite sign' m e positive =>
          obtain ⟨-, parts⟩ := Value.finite.inj same
          exact absurd (Magnitude.mk.inj parts).1 (Nat.ne_of_lt positive)
      | _ => cases same
  | finite sign m e positive =>
      cases b with
      | zero sign' =>
          obtain ⟨-, parts⟩ := Value.finite.inj same
          exact absurd (Magnitude.mk.inj parts).1.symm (Nat.ne_of_lt positive)
      | finite sign' m' e' positive' =>
          obtain ⟨signs, parts⟩ := Value.finite.inj same
          obtain ⟨rfl, rfl⟩ := Magnitude.mk.inj parts
          rw [negative_injective signs]
      | _ => cases same

theorem ofFloat_injective {x y : Float} (same : Value.ofFloat x = Value.ofFloat y) : x = y := by
  rw [ofFloat_eq_kind, ofFloat_eq_kind] at same
  exact value_injective (kind_injective same)

namespace Value

/-- Binary64 has the value, if it is finite. -/
def IsKept : Value → Prop
  | .finite _ magnitude => Kept magnitude.significand magnitude.exponent ∧ magnitude.exponent ≤ 971
  | _ => True

theorem isKept_ofFloat (x : Float) : (ofFloat x).IsKept := by
  have has := representable_value x
  rw [ofFloat_eq_kind]
  cases same : value x with
  | notANumber => trivial
  | infinity _ => trivial
  | zero _ => exact ⟨⟨by decide, by decide, .inr rfl⟩, by decide⟩
  | finite _ m e _ =>
      rw [same] at has
      exact has

def plain (a : Value) : String :=
  a.textWith (Magnitude.positional (-1))

section Finite

variable {negative : Bool} {magnitude : Magnitude} {c : Char}

theorem exists_plain_finite (negative : Bool) (magnitude : Magnitude) :
    ∃ coefficient places, plain (.finite negative magnitude) =
      Decimal.signed negative (Decimal.pointed coefficient places) := by
  obtain ⟨coefficient, places, text⟩ := magnitude.exists_pointed
  exact ⟨coefficient, places, congrArg (Decimal.signed negative) text⟩

theorem numeric_of_mem_plain (listed : c ∈ (plain (.finite negative magnitude)).toList) :
    Decimal.numeric c = true := by
  obtain ⟨coefficient, places, text⟩ := exists_plain_finite negative magnitude
  rw [text] at listed
  exact Decimal.numeric_of_mem_signed listed

theorem minus_notMem_positional : '-' ∉ (magnitude.positional (-1)).toList := by
  obtain ⟨coefficient, places, text⟩ := magnitude.exists_pointed
  rw [text]
  exact Decimal.minus_notMem_pointed coefficient places

theorem plain_finite_ne {word : String} (other : word.toList.all Decimal.numeric = false) :
    plain (.finite negative magnitude) ≠ word := by
  rintro rfl
  rw [List.all_eq_true.mpr fun _ listed => numeric_of_mem_plain listed] at other
  cases other

end Finite

theorem plain_ne_empty (a : Value) : a.plain ≠ "" := by
  cases a with
  | notANumber => decide
  | infinite negative => cases negative <;> decide
  | finite negative magnitude =>
      obtain ⟨coefficient, places, text⟩ := exists_plain_finite negative magnitude
      rw [text]
      exact Decimal.signed_ne_empty negative (Decimal.pointed_ne_empty coefficient places)

theorem delimiter_notMem_plain (a : Value) {c : Char} (delimiter : c ∈ delimiters) :
    c ∉ a.plain.toList := by
  have apart {word : String} (all : delimiters.all (!word.toList.contains ·) = true) :
      c ∉ word.toList := by
    simpa using List.all_eq_true.mp all c delimiter
  cases a with
  | notANumber => exact apart rfl
  | infinite negative => cases negative <;> exact apart rfl
  | finite negative magnitude =>
      intro listed
      have other : delimiters.all (!Decimal.numeric ·) = true := rfl
      have notNumeric := List.all_eq_true.mp other c delimiter
      rw [numeric_of_mem_plain listed] at notNumeric
      cases notNumeric

theorem eq_of_plain_eq {a b : Value} (aKept : a.IsKept) (bKept : b.IsKept)
    (same : a.plain = b.plain) : a = b := by
  cases a with
  | notANumber =>
      cases b with
      | notANumber => rfl
      | infinite negative => cases negative <;> exact absurd same (by decide)
      | finite negative magnitude => exact absurd same.symm (plain_finite_ne rfl)
  | infinite negative =>
      cases b with
      | notANumber => cases negative <;> exact absurd same (by decide)
      | infinite negative' =>
          cases negative <;> cases negative' <;> first | rfl | exact absurd same (by decide)
      | finite negative' magnitude =>
          cases negative <;> exact absurd same.symm (plain_finite_ne rfl)
  | finite negative magnitude =>
      cases b with
      | notANumber => exact absurd same (plain_finite_ne rfl)
      | infinite negative' => cases negative' <;> exact absurd same (plain_finite_ne rfl)
      | finite negative' magnitude' =>
          obtain ⟨rfl, texts⟩ :=
            Decimal.signed_inj minus_notMem_positional minus_notMem_positional same
          have magnitudes : magnitude = magnitude' :=
            Magnitude.eq_of_positional_eq aKept.1 aKept.2 bKept.1 bKept.2 texts
          rw [magnitudes]

end Value

end EchoState.Binary64

namespace EchoState

open Binary64

instance : LegibleScalar Float where
  positional_ne_empty x := (Value.ofFloat x).plain_ne_empty
  delimiter_notMem x _ delimiter := (Value.ofFloat x).delimiter_notMem_plain delimiter
  same_of_positional_eq same :=
    .inl (ofFloat_injective
      (Value.eq_of_plain_eq (Value.isKept_ofFloat _) (Value.isKept_ofFloat _) same))

end EchoState
