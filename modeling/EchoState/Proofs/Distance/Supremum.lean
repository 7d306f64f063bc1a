import EchoState.Distance
import EchoState.Proofs.Scalar.Order

/-!
# The largest gap

A running maximum keeps the first of the values that are not below any other. As long as it meets
numbers only, it is at least all of them and is its start or one of them. A comparison with what is
no number fails, so a gap that is no number would be passed over: the largest gap says something
about finite samples only. That it is the distance of order infinity is a law of distances, which
those of the running scalar obey.
-/

namespace EchoState

/-- The distances of order infinity are found by a running maximum from zero. -/
class SupremumDistances (α : Type) [Scalar α] [Distances α] : Prop where
  between_inf {s t : List α} (sameLength : s.length = t.length) :
    Distances.between Scalar.inf s t = Distance.supremum s t

namespace Distance

variable {α : Type} [Scalar α]

/-- The running maximum of a list from a value on. -/
def largest (best : α) (list : List α) : α :=
  list.foldl (fun best gap => if Scalar.lt best gap then gap else best) best

theorem largest_cons (best gap : α) (rest : List α) :
    largest best (gap :: rest) = largest (if Scalar.lt best gap then gap else best) rest :=
  rfl

theorem supremum_eq_largest (s t : List α) : supremum s t = largest 0 (gaps s t) :=
  rfl

theorem largest_eq_or_mem (best : α) (list : List α) :
    largest best list = best ∨ largest best list ∈ list := by
  induction list generalizing best with
  | nil => exact Or.inl rfl
  | cons gap rest ih =>
      rw [largest_cons]
      rcases ih (if Scalar.lt best gap then gap else best) with same | later
      · rw [same]
        split
        · exact Or.inr (List.mem_cons_self ..)
        · exact Or.inl rfl
      · exact Or.inr (List.mem_cons_of_mem gap later)

theorem isNaN_largest {best : α} {list : List α} (number : Scalar.isNaN best = false)
    (numbers : ∀ gap ∈ list, Scalar.isNaN gap = false) :
    Scalar.isNaN (largest best list) = false := by
  rcases largest_eq_or_mem best list with same | listed
  · rw [same]
    exact number
  · exact numbers _ listed

theorem largest_of_zeros {list : List α} (zeros : ∀ gap ∈ list, gap = 0) :
    largest 0 list = 0 := by
  rcases largest_eq_or_mem 0 list with same | listed
  · exact same
  · exact zeros _ listed

theorem supremum_self {s : List α} (none : ∀ x ∈ s, Scalar.abs (x - x) = 0) :
    supremum s s = 0 := by
  have same : gaps s s = s.map fun x => Scalar.abs (x - x) := List.zipWith_self
  rw [supremum_eq_largest, same]
  apply largest_of_zeros
  intro gap isGap
  obtain ⟨x, isEntry, rfl⟩ := List.mem_map.mp isGap
  exact none x isEntry

theorem gaps_ofFn {n : Nat} (f g : Fin n → α) :
    gaps (List.ofFn f) (List.ofFn g) = List.ofFn fun k => Scalar.abs (g k - f k) := by
  apply List.ext_getElem
  · simp [gaps]
  · intro i inside inside'
    simp [gaps]

theorem mem_gaps_toList {n : Nat} {v w : Vector α n} {gap : α} :
    gap ∈ gaps v.toList w.toList ↔ ∃ i, Scalar.abs (w.get i - v.get i) = gap := by
  have entries (u : Vector α n) : u.toList = List.ofFn u.get := by
    apply List.ext_getElem
    · simp
    · intro i inside inside'
      simp [Vector.get]
  rw [entries v, entries w, gaps_ofFn, List.mem_ofFn]

/-- A running maximum from a number on is at least its start and each number that it meets, even
when it passes over what is no number. -/
theorem le_largest_of_number [OrderedScalar α] {best : α} {list : List α}
    (number : Scalar.isNaN best = false) :
    Scalar.le best (largest best list) ∧
      ∀ gap ∈ list, Scalar.isNaN gap = false → Scalar.le gap (largest best list) := by
  induction list generalizing best with
  | nil => exact ⟨OrderedScalar.le_refl number, nofun⟩
  | cons gap rest ih =>
      rw [largest_cons, List.forall_mem_cons]
      by_cases larger : Scalar.lt best gap = true
      · rw [if_pos larger]
        have raised := Scalar.le_of_lt larger
        obtain ⟨start, later⟩ := ih (OrderedScalar.numbers_of_le raised).2
        exact ⟨OrderedScalar.le_trans raised start, fun _ => start, later⟩
      · rw [if_neg larger]
        obtain ⟨start, later⟩ := ih number
        exact ⟨start, fun gapNumber => OrderedScalar.le_trans
          (Scalar.le_of_not_lt number gapNumber larger) start, later⟩

section Ordered

variable [OrderedScalar α] {best bound : α} {list : List α} (number : Scalar.isNaN best = false)
  (numbers : ∀ gap ∈ list, Scalar.isNaN gap = false)

include number numbers

theorem le_largest :
    Scalar.le best (largest best list) ∧ ∀ gap ∈ list, Scalar.le gap (largest best list) :=
  ⟨(le_largest_of_number number).1,
    fun gap listed => (le_largest_of_number number).2 gap listed (numbers gap listed)⟩

/-- A running maximum of numbers is below a bound exactly when each of them is. -/
theorem largest_lt_iff :
    Scalar.lt (largest best list) bound ↔
      Scalar.lt best bound ∧ ∀ gap ∈ list, Scalar.lt gap bound := by
  constructor
  · intro below
    have above := le_largest number numbers
    exact ⟨Scalar.lt_of_le_of_lt above.1 below,
      fun gap listed => Scalar.lt_of_le_of_lt (above.2 gap listed) below⟩
  · rintro ⟨start, each⟩
    rcases largest_eq_or_mem best list with same | listed
    · rw [same]
      exact start
    · exact each _ listed

end Ordered

/-- The norm of order infinity, where infinity is neither two nor one. -/
theorem ofOrder_inf (notTwo : Scalar.eq (Scalar.inf : α) (Scalar.natural 2) = false)
    (notOne : Scalar.eq (Scalar.inf : α) 1 = false)
    (itself : Scalar.eq (Scalar.inf : α) Scalar.inf = true) (s t : List α) :
    ofOrder Scalar.inf s t = supremum s t := by
  unfold ofOrder
  rw [notTwo, notOne, itself, if_neg Bool.false_ne_true, if_neg Bool.false_ne_true, if_pos rfl]
  cases s with
  | nil => rfl
  | cons x rest => rfl

end Distance

instance : SupremumDistances Float where
  between_inf _ :=
    Distance.ofOrder_inf (by with_unfolding_all decide) (by with_unfolding_all decide)
      (by with_unfolding_all decide) _ _

end EchoState
