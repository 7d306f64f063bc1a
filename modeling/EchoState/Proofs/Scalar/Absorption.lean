import EchoState.Proofs.Scalar.Enclosure

/-!
# What is no number stays none

No operation of the reservoir equations makes a number of what is none. A sum is no number as soon
as one of its terms is none, and leaving out zero inputs does not help, since an input that is no
number is not zero. The running scalar keeps these laws.
-/

namespace EchoState

/-- A scalar in which whatever is computed from a value that is no number is no number. -/
class AbsorbingScalar (α : Type) [Scalar α] : Prop extends OrderedScalar α where
  isNaN_nan : Scalar.isNaN (Scalar.nan : α)
  isNaN_add : ∀ {x y : α}, Scalar.isNaN x ∨ Scalar.isNaN y → Scalar.isNaN (x + y)
  isNaN_sub : ∀ {x y : α}, Scalar.isNaN x ∨ Scalar.isNaN y → Scalar.isNaN (x - y)
  isNaN_mul : ∀ {x y : α}, Scalar.isNaN x ∨ Scalar.isNaN y → Scalar.isNaN (x * y)
  isNaN_tanh : ∀ {x : α}, Scalar.isNaN x → Scalar.isNaN (Scalar.tanh x)

namespace Scalar

variable {α : Type} [Scalar α]

theorem not_finite_of_isNaN {x : α} (none : isNaN x) : finite x = false := by
  simp [finite, none]

theorem numbers_of_absorbs {x y z : α} (absorbs : isNaN x ∨ isNaN y → isNaN z)
    (number : isNaN z = false) : isNaN x = false ∧ isNaN y = false := by
  rw [← Bool.or_eq_false_iff, ← Bool.not_eq_true, Bool.or_eq_true]
  intro none
  rw [absorbs none] at number
  cases number

theorem isZero_of_isNaN [OrderedScalar α] {x : α} (none : isNaN x) : isZero x = false := by
  rw [Bool.eq_false_iff]
  intro zero
  rw [(OrderedScalar.numbers_of_le (le_of_eq zero)).1] at none
  cases none

theorem lt_of_isNaN_left [OrderedScalar α] {x : α} (none : isNaN x) (y : α) : lt x y = false := by
  rw [Bool.eq_false_iff]
  intro below
  rw [(OrderedScalar.numbers_of_le (le_of_lt below)).1] at none
  cases none

theorem isNaN_sumWhere [AbsorbingScalar α] (n : Nat) {keep : Fin n → Bool} {term : Fin n → α}
    (i : Fin n) (kept : keep i) (none : isNaN (term i)) : isNaN (sumWhere n keep term) := by
  induction n with
  | zero => exact i.elim0
  | succ n ih =>
      rw [sumWhere_succ]
      cases i using Fin.lastCases with
      | last =>
          rw [if_pos kept]
          exact AbsorbingScalar.isNaN_add (Or.inr none)
      | cast i =>
          have earlier : isNaN (sumWhere n (fun k => keep k.castSucc) fun k => term k.castSucc) :=
            ih i kept none
          split
          · exact AbsorbingScalar.isNaN_add (Or.inl earlier)
          · exact earlier

end Scalar

end EchoState

namespace EchoState.Binary64

open Float.Model Float.Model.UnpackedFloat

theorem value_of_isNaN {x : Float} (nan : Scalar.isNaN x = true) : value x = .notANumber := by
  rw [← isNaN_value] at nan
  cases same : value x with
  | notANumber => rfl
  | infinity sign => exact absurd nan (by rw [same]; exact Bool.false_ne_true)
  | zero sign => exact absurd nan (by rw [same]; exact Bool.false_ne_true)
  | finite sign m e positive => exact absurd nan (by rw [same]; exact Bool.false_ne_true)

theorem isNaN_of_value {x : Float} {a : UnpackedFloat} (same : value x = repacked a)
    (none : a = .notANumber) : Scalar.isNaN x = true := by
  rw [← isNaN_value, same, none]
  exact congrArg UnpackedFloat.isNaN (repacked_of_representable (a := .notANumber) trivial)

/-- An operation that gives no number whenever an operand is none does so on running numbers. -/
theorem isNaN_operation {operation : UnpackedFloat → UnpackedFloat → UnpackedFloat} {x y z : Float}
    (computed : value z = repacked (operation (value x) (value y)))
    (left : ∀ b, operation .notANumber b = .notANumber)
    (right : ∀ a, operation a .notANumber = .notANumber)
    (either : Scalar.isNaN x = true ∨ Scalar.isNaN y = true) : Scalar.isNaN z = true := by
  apply isNaN_of_value computed
  rcases either with none | none
  · rw [value_of_isNaN none, left]
  · rw [value_of_isNaN none, right]

end EchoState.Binary64

namespace EchoState.Elementary

open Binary64 Float.Model

theorem tanh_of_isNaN {x : Float} (nan : Scalar.isNaN x = true) :
    Scalar.isNaN (tanh x) = true := by
  have none := value_of_isNaN nan
  have notFar : ¬x.abs ≥ 0.625 := by
    intro far
    have compared := (OrderedScalar.numbers_of_le (α := Float) (decide_eq_true far)).2
    exact Bool.false_ne_true (compared.symm.trans ((MeasuredScalar.isNaN_abs x).trans nan))
  have notZero : ¬(x == 0) = true := by
    intro zero
    obtain ⟨sign, same⟩ := isZero_iff.mp zero
    rw [none] at same
    cases same
  unfold tanh
  dsimp only
  rw [if_neg notFar, if_neg notZero]
  unfold tanhNearZero
  apply isNaN_of_value (value_add _ _)
  rw [none]
  rfl

end EchoState.Elementary

namespace EchoState

open Binary64 Float.Model

instance : AbsorbingScalar Float where
  isNaN_nan := by decide +kernel
  isNaN_add {x y} := isNaN_operation (value_add x y) (fun b => by cases b <;> rfl)
    fun a => by cases a <;> rfl
  isNaN_sub {x y} := isNaN_operation (value_sub x y) (fun b => by cases b <;> rfl)
    fun a => by cases a <;> rfl
  isNaN_mul {x y} := isNaN_operation (value_mul x y) (fun b => by cases b <;> rfl)
    fun a => by cases a <;> rfl
  isNaN_tanh := Elementary.tanh_of_isNaN

end EchoState
