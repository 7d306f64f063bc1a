import EchoState.Proofs.Distance.Norms
import EchoState.Proofs.Scalar.Overflow

/-!
# What a finite result says of its operands

From zero up a value is finite or it is infinity, and infinity stays in every sum from zero up. So a
sum from zero up is finite only if its addends are, and a difference only if both of its sides are.
The running scalar keeps these laws.
-/

namespace EchoState

/-- A scalar in which infinity is the only value from zero up that is not finite, and in which
sizes and differences of what is not finite are not finite. -/
class ExtendedScalar (α : Type) [Scalar α] : Prop
    extends AdditiveScalar α, AbsorbingScalar α where
  lt_inf : ∀ {x : α}, Scalar.finite x → Scalar.lt x Scalar.inf
  eq_inf : ∀ {x : α}, Scalar.le 0 x → ¬Scalar.finite x → x = Scalar.inf
  finite_abs : ∀ x : α, Scalar.finite (Scalar.abs x) = Scalar.finite x
  finite_of_sub : ∀ {x y : α}, Scalar.finite (x - y) → Scalar.finite x ∧ Scalar.finite y

/-- The least of three values that are from zero up unless they are no numbers is such a value. -/
theorem NeverNegative.least {α : Type} [Scalar α] {x y z : α} (xNever : NeverNegative x)
    (yNever : NeverNegative y) (zNever : NeverNegative z) :
    NeverNegative (Scalar.least x y z) := by
  rcases Scalar.least_eq x y z with same | same | same
  · rwa [same]
  · rwa [same]
  · rwa [same]

namespace Scalar

variable {α : Type} [Scalar α] [ExtendedScalar α] {x y : α}

theorem not_finite_inf : ¬finite (inf : α) := fun isFinite =>
  not_inf_lt_inf (ExtendedScalar.lt_inf isFinite)

theorem finite_of_nonneg_of_le (nonneg : le 0 x) (atMost : le x y) (yFinite : finite y) :
    finite x := by
  by_contra notFinite
  rw [ExtendedScalar.eq_inf nonneg notFinite] at atMost
  exact (OrderedScalar.lt_iff.mp (ExtendedScalar.lt_inf yFinite)).2 atMost

theorem eq_inf_of_inf_le (atLeast : le inf x) : x = inf := by
  apply ExtendedScalar.eq_inf (OrderedScalar.le_trans AdditiveScalar.zero_le_inf atLeast)
  exact fun isFinite => (OrderedScalar.lt_iff.mp (ExtendedScalar.lt_inf isFinite)).2 atLeast

theorem eq_inf_iff (nonneg : le 0 x) : x = inf ↔ ¬finite x := by
  constructor
  · rintro rfl
    exact not_finite_inf
  · exact ExtendedScalar.eq_inf nonneg

theorem finite_of_add (xNever : NeverNegative x) (yNever : NeverNegative y)
    (sum : finite (x + y)) : finite x ∧ finite y := by
  have numbers := numbers_of_absorbs AbsorbingScalar.isNaN_add (isNaN_of_finite sum)
  constructor
  · by_contra notFinite
    rw [ExtendedScalar.eq_inf (xNever numbers.1) notFinite,
      AdditiveScalar.inf_add (yNever numbers.2)] at sum
    exact not_finite_inf sum
  · by_contra notFinite
    rw [ExtendedScalar.eq_inf (yNever numbers.2) notFinite,
      AdditiveScalar.add_inf (xNever numbers.1)] at sum
    exact not_finite_inf sum

/-- The terms of a finite running sum from zero up are finite, and so is its start. -/
theorem finite_of_foldl_add {β : Type} {term : β → α} {list : List β} {total : α}
    (start : NeverNegative total) (terms : ∀ x ∈ list, NeverNegative (term x))
    (sum : finite (list.foldl (fun total x => total + term x) total)) :
    finite total ∧ ∀ x ∈ list, finite (term x) := by
  induction list generalizing total with
  | nil => exact ⟨sum, nofun⟩
  | cons x rest ih =>
      rw [List.forall_mem_cons] at terms ⊢
      obtain ⟨earlier, later⟩ := ih (start.add terms.1) terms.2 sum
      obtain ⟨before, here⟩ := finite_of_add start terms.1 earlier
      exact ⟨before, here, later⟩

end Scalar

end EchoState

namespace EchoState.Binary64

theorem eq_inf_of_nonneg {x : Float} (nonneg : Scalar.le 0 x) (notFinite : ¬Scalar.finite x) :
    x = Scalar.inf := by
  rcases infinite_of_not_finite (Scalar.number_of_nonneg nonneg) notFinite with same | rfl
  · exact same
  · exact absurd nonneg (by with_unfolding_all decide)

theorem finite_abs_eq (x : Float) : Scalar.finite (Scalar.abs x) = Scalar.finite x := by
  rw [Bool.eq_iff_iff]
  exact ⟨finite_of_finite_abs, finite_abs⟩

theorem finite_of_sub_right {x y : Float} (difference : Scalar.finite (x - y)) :
    Scalar.finite y = true := by
  by_contra notFinite
  have numbers := Scalar.numbers_of_absorbs AbsorbingScalar.isNaN_sub
    (Scalar.isNaN_of_finite difference)
  by_cases xFinite : Scalar.finite x = true
  · rcases infinite_of_not_finite numbers.2 notFinite with rfl | rfl
    · rw [sub_inf xFinite] at difference
      exact absurd difference (by with_unfolding_all decide)
    · rw [sub_neg_inf xFinite] at difference
      exact absurd difference (by with_unfolding_all decide)
  · rcases infinite_of_not_finite numbers.1 xFinite with rfl | rfl <;>
      rcases infinite_of_not_finite numbers.2 notFinite with rfl | rfl <;>
        exact absurd difference (by with_unfolding_all decide)

theorem finite_of_sub {x y : Float} (difference : Scalar.finite (x - y)) :
    Scalar.finite x = true ∧ Scalar.finite y = true := by
  refine ⟨?_, finite_of_sub_right difference⟩
  rw [← finite_abs_eq, abs_sub_comm, finite_abs_eq] at difference
  exact finite_of_sub_right difference

end EchoState.Binary64

namespace EchoState

instance : ExtendedScalar Float where
  lt_inf := Binary64.lt_inf_of_finite
  eq_inf := Binary64.eq_inf_of_nonneg
  finite_abs := Binary64.finite_abs_eq
  finite_of_sub := Binary64.finite_of_sub

end EchoState
