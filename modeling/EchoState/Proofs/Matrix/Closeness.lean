import EchoState.Matrix.Closeness
import EchoState.Proofs.Binary64.Product
import EchoState.Proofs.Matrix.Finite
import EchoState.Proofs.Scalar.Extent

/-!
# Which entries count as close

The tolerance for a difference grows with the second entry, so it is infinite where that entry is.
Then every number is as close as an infinite difference can be: beside equal entries and finite ones
within tolerance, unequal entries count as close when the second one is infinite and the relative
tolerance is not zero, or when the tolerance for a finite one overflows. What is no number is close
to nothing. Larger tolerances never part what was close.
-/

namespace EchoState

namespace Binary64

open Float.Model

theorem amount_abs_nonneg (x : Float) : 0 ≤ amount (Scalar.abs x) := by
  rw [amount_abs]
  exact abs_nonneg _

/-! ## Products from zero up -/

section Products

variable {x x' y : Float} (xFinite : Scalar.finite x) (yFinite : Scalar.finite y)

include xFinite yFinite

theorem mul_nonneg_of_finite (xNonneg : 0 ≤ amount x) (yNonneg : 0 ≤ amount y) :
    Scalar.le 0 (x * y) :=
  (number_of_rounds (value_mul x y) (rounds_amount_mul xFinite yFinite)).2
    (mul_nonneg xNonneg yNonneg)

theorem mul_le_mul_of_finite (xFinite' : Scalar.finite x') (xNonneg : 0 ≤ amount x)
    (atMost : Scalar.le x x') (yNonneg : 0 ≤ amount y) : Scalar.le (x * y) (x' * y) := by
  rw [le_iff_amount_le xFinite xFinite'] at atMost
  have nonneg := mul_nonneg_of_finite xFinite yFinite xNonneg yNonneg
  have nonneg' := mul_nonneg_of_finite xFinite' yFinite (xNonneg.trans atMost) yNonneg
  by_cases finite' : Scalar.finite (x' * y)
  · have rounds := rounds_amount_mul xFinite yFinite
    have inOrder := exact_mul_mono (isKept_value xFinite) (isKept_value xFinite')
      (isKept_value yFinite) xNonneg atMost yNonneg
    rw [← amount_eq_of_rounds (value_mul x' y) (rounds_amount_mul xFinite' yFinite) finite']
      at inOrder
    have fromZero := rounds.ge onScale_zero (mul_nonneg xNonneg yNonneg)
    obtain ⟨finite, -, most⟩ := within_of_rounds (value_mul x y) (rounds_exact rounds.kept)
      onScale_zero (onScale_amount finite') fromZero inOrder
    exact (le_iff_amount_le finite finite').mpr most
  · rw [eq_inf_of_nonneg nonneg' finite']
    exact Scalar.le_inf nonneg

end Products

/-! ## Infinities -/

theorem isInf_iff {x : Float} :
    Scalar.isInf x ↔ Scalar.isNaN x = false ∧ Scalar.finite x = false := by
  show (value x).isInf = true ↔
    (value x).isNaN = false ∧ ((!(value x).isNaN) && !(value x).isInf) = false
  cases value x <;> simp [UnpackedFloat.isNaN, UnpackedFloat.isInf]

theorem abs_of_isInf {x : Float} (infinite : Scalar.isInf x) : Scalar.abs x = Scalar.inf := by
  obtain ⟨number, notFinite⟩ := isInf_iff.mp infinite
  exact abs_eq_inf number (by rw [finite_abs_eq, notFinite]; exact Bool.false_ne_true)

theorem abs_mul_inf {x : Float} (finite : Scalar.finite x) (notZero : ¬Scalar.isZero x) :
    Scalar.abs x * Scalar.inf = Scalar.inf := by
  have product : UnpackedFloat.mul Format.binary64 (value (Scalar.abs x)) (.infinity .positive) =
      .infinity .positive := by
    rw [value_abs]
    rcases finite_iff.mp finite with ⟨sign, same⟩ | ⟨sign, m, e, positive, same⟩
    · exact absurd (isZero_iff.mpr ⟨sign, same⟩) notZero
    · rw [same]
      rfl
  apply value_injective
  rw [value_mul, value_inf, product]
  exact repacked_of_representable (a := .infinity .positive) trivial

/-- Unequal numbers one of which is infinite are infinitely far apart. -/
theorem abs_sub_eq_inf {x y : Float} (xNumber : Scalar.isNaN x = false)
    (yNumber : Scalar.isNaN y = false) (apart : ¬Scalar.eq x y)
    (infinite : ¬(Scalar.finite x ∧ Scalar.finite y)) : Scalar.abs (x - y) = Scalar.inf := by
  have notFinite : ¬Scalar.finite (Scalar.abs (x - y)) = true := by
    rw [finite_abs_eq]
    exact mt finite_of_sub infinite
  refine abs_eq_inf ?_ notFinite
  by_cases xFinite : Scalar.finite x
  · rw [isNaN_sub_eq xFinite, yNumber]
  by_cases yFinite : Scalar.finite y
  · rw [← MeasuredScalar.isNaN_abs, abs_sub_comm, MeasuredScalar.isNaN_abs, isNaN_sub_eq yFinite,
      xNumber]
  rcases infinite_of_not_finite xNumber xFinite with rfl | rfl
  · rcases infinite_of_not_finite yNumber yFinite with rfl | rfl
    · exact absurd (by with_unfolding_all decide) apart
    · with_unfolding_all decide
  · rcases infinite_of_not_finite yNumber yFinite with rfl | rfl
    · with_unfolding_all decide
    · exact absurd (by with_unfolding_all decide) apart

end Binary64

open Binary64

/-! ## Tolerances -/

/-- What the difference of two entries may amount to, where the second one is `y`. -/
def allowance (relative absolute y : Float) : Float :=
  Scalar.abs absolute + Scalar.abs relative * Scalar.abs y

section Tolerances

variable {relative absolute y : Float} (relativeFinite : Scalar.finite relative)
  (absoluteFinite : Scalar.finite absolute)

include relativeFinite absoluteFinite

theorem allowance_nonneg (yFinite : Scalar.finite y) :
    Scalar.le 0 (allowance relative absolute y) := by
  have product : Scalar.le 0 (Scalar.abs relative * Scalar.abs y) :=
    mul_nonneg_of_finite (finite_abs relativeFinite) (finite_abs yFinite)
      (amount_abs_nonneg relative) (amount_abs_nonneg y)
  exact Scalar.add_nonneg (zero_le_abs (Scalar.isNaN_of_finite absoluteFinite)) product

theorem allowance_eq_inf (infinite : Scalar.isInf y) (notZero : ¬Scalar.isZero relative) :
    allowance relative absolute y = Scalar.inf := by
  unfold allowance
  rw [abs_of_isInf infinite, abs_mul_inf relativeFinite notZero]
  exact AdditiveScalar.add_inf (zero_le_abs (Scalar.isNaN_of_finite absoluteFinite))

omit relativeFinite absoluteFinite in
/-- No multiple of an infinite entry is zero, so without a relative tolerance nothing is left to
compare with. -/
theorem isNaN_allowance (infinite : Scalar.isInf y) (zero : Scalar.isZero relative) :
    Scalar.isNaN (allowance relative absolute y) = true := by
  unfold allowance
  rw [abs_of_isInf infinite, abs_eq_zero_iff.mpr zero]
  exact AbsorbingScalar.isNaN_add (Or.inr (by with_unfolding_all decide))

/-- Larger tolerances allow for more. -/
theorem allowance_mono {relative' absolute' : Float} (relativeFinite' : Scalar.finite relative')
    (relativeAtMost : Scalar.le (Scalar.abs relative) (Scalar.abs relative'))
    (absoluteAtMost : Scalar.le (Scalar.abs absolute) (Scalar.abs absolute'))
    (yFinite : Scalar.finite y) :
    Scalar.le (allowance relative absolute y) (allowance relative' absolute' y) := by
  have relativeFinite := finite_abs relativeFinite
  have yFinite := finite_abs yFinite
  apply AdditiveScalar.add_le_add
  · exact zero_le_abs (Scalar.isNaN_of_finite absoluteFinite)
  · exact absoluteAtMost
  · exact mul_nonneg_of_finite relativeFinite yFinite (amount_abs_nonneg relative)
      (amount_abs_nonneg y)
  · exact mul_le_mul_of_finite relativeFinite yFinite (finite_abs relativeFinite')
      (amount_abs_nonneg relative) relativeAtMost (amount_abs_nonneg y)

end Tolerances

/-! ## Close entries -/

/-- Entries that count as close under finite tolerances. -/
inductive CountsAsClose (relative absolute x y : Float) : Prop where
  /-- Equal values, and so equal infinities. -/
  | equal (same : Scalar.eq x y)
  /-- Finite values within tolerance. -/
  | within (xFinite : Scalar.finite x) (yFinite : Scalar.finite y)
      (near : Scalar.le (Scalar.abs (x - y)) (allowance relative absolute y))
  /-- Any number beside an infinite second entry, unless the relative tolerance is zero. -/
  | unbounded (number : Scalar.isNaN x = false) (infinite : Scalar.isInf y)
      (notZero : ¬Scalar.isZero relative)
  /-- An infinite first entry, where the tolerance for the second one overflows. -/
  | overflow (infinite : Scalar.isInf x) (yFinite : Scalar.finite y)
      (endless : allowance relative absolute y = Scalar.inf)

namespace CountsAsClose

variable {relative absolute x y : Float}

theorem numbers (close : CountsAsClose relative absolute x y) :
    Scalar.isNaN x = false ∧ Scalar.isNaN y = false := by
  cases close with
  | equal same => exact OrderedScalar.numbers_of_le (Scalar.le_of_eq same)
  | within xFinite yFinite near =>
      exact ⟨Scalar.isNaN_of_finite xFinite, Scalar.isNaN_of_finite yFinite⟩
  | unbounded number infinite notZero => exact ⟨number, (isInf_iff.mp infinite).1⟩
  | overflow infinite yFinite endless =>
      exact ⟨(isInf_iff.mp infinite).1, Scalar.isNaN_of_finite yFinite⟩

/-- Unequal entries within tolerance count as close: either both are finite, or they are infinitely
far apart and the tolerance is infinite too. -/
theorem of_near (apart : ¬Scalar.eq x y)
    (near : Scalar.le (Scalar.abs (x - y)) (allowance relative absolute y)) :
    CountsAsClose relative absolute x y := by
  obtain ⟨gapNumber, number⟩ := OrderedScalar.numbers_of_le near
  obtain ⟨xNumber, yNumber⟩ := Scalar.numbers_of_absorbs AbsorbingScalar.isNaN_sub
    ((MeasuredScalar.isNaN_abs _).symm.trans gapNumber)
  by_cases finite : Scalar.finite x ∧ Scalar.finite y
  · exact .within finite.1 finite.2 near
  rw [abs_sub_eq_inf xNumber yNumber apart finite] at near
  cases yFinite : Scalar.finite y with
  | true =>
      have infinite : Scalar.isInf x := isInf_iff.mpr ⟨xNumber, by simpa [yFinite] using finite⟩
      exact .overflow infinite yFinite (Scalar.eq_inf_of_inf_le near)
  | false =>
      have infinite : Scalar.isInf y := isInf_iff.mpr ⟨yNumber, yFinite⟩
      refine .unbounded xNumber infinite fun zero => ?_
      rw [isNaN_allowance infinite zero] at number
      cases number

variable (relativeFinite : Scalar.finite relative) (absoluteFinite : Scalar.finite absolute)

include relativeFinite absoluteFinite

/-- Finite entries count as close when they are within tolerance. -/
theorem iff_of_finite (xFinite : Scalar.finite x) (yFinite : Scalar.finite y) :
    CountsAsClose relative absolute x y ↔
      Scalar.le (Scalar.abs (x - y)) (allowance relative absolute y) := by
  constructor
  · intro close
    cases close with
    | equal same =>
        rw [(abs_sub_eq_zero_iff xFinite yFinite).mpr same]
        exact allowance_nonneg relativeFinite absoluteFinite yFinite
    | within xFinite yFinite near => exact near
    | unbounded number infinite notZero =>
        rw [(isInf_iff.mp infinite).2] at yFinite
        cases yFinite
    | overflow infinite yFinite endless =>
        rw [(isInf_iff.mp infinite).2] at xFinite
        cases xFinite
  · exact .within xFinite yFinite

/-- Larger tolerances keep close what was close. -/
theorem mono {relative' absolute' : Float} (relativeFinite' : Scalar.finite relative')
    (relativeAtMost : Scalar.le (Scalar.abs relative) (Scalar.abs relative'))
    (absoluteAtMost : Scalar.le (Scalar.abs absolute) (Scalar.abs absolute'))
    (close : CountsAsClose relative absolute x y) : CountsAsClose relative' absolute' x y := by
  have more (yFinite : Scalar.finite y) :
      Scalar.le (allowance relative absolute y) (allowance relative' absolute' y) :=
    allowance_mono relativeFinite absoluteFinite relativeFinite' relativeAtMost absoluteAtMost
      yFinite
  cases close with
  | equal same => exact .equal same
  | within xFinite yFinite near =>
      exact .within xFinite yFinite (OrderedScalar.le_trans near (more yFinite))
  | unbounded number infinite notZero =>
      refine .unbounded number infinite fun zero => notZero (abs_eq_zero_iff.mp (abs_eq_zero ?_))
      rwa [abs_eq_zero_iff.mpr zero] at relativeAtMost
  | overflow infinite yFinite endless =>
      have atLeast := more yFinite
      rw [endless] at atLeast
      exact .overflow infinite yFinite (Scalar.eq_inf_of_inf_le atLeast)

theorem near (apart : ¬Scalar.eq x y) (close : CountsAsClose relative absolute x y) :
    Scalar.le (Scalar.abs (x - y)) (allowance relative absolute y) := by
  have numbers := close.numbers
  have endless (infinite : ¬(Scalar.finite x ∧ Scalar.finite y)) :
      Scalar.le (Scalar.abs (x - y)) Scalar.inf := by
    rw [abs_sub_eq_inf numbers.1 numbers.2 apart infinite]
    exact Scalar.le_inf AdditiveScalar.zero_le_inf
  cases close with
  | equal same => exact absurd same apart
  | within xFinite yFinite near => exact near
  | unbounded number infinite notZero =>
      rw [allowance_eq_inf relativeFinite absoluteFinite infinite notZero]
      exact endless (by simp [(isInf_iff.mp infinite).2])
  | overflow infinite yFinite allowed =>
      rw [allowed]
      exact endless (by simp [(isInf_iff.mp infinite).2])

end CountsAsClose

/-- The comparison of two entries takes for close what counts as close. -/
theorem closeTo_iff {relative absolute x y : Float} (relativeFinite : Scalar.finite relative)
    (absoluteFinite : Scalar.finite absolute) :
    closeTo (Scalar.abs relative) (Scalar.abs absolute) x y ↔
      CountsAsClose relative absolute x y := by
  show (Scalar.eq x y || Scalar.le (Scalar.abs (x - y)) (allowance relative absolute y)) = true ↔ _
  by_cases same : Scalar.eq x y
  · rw [same, Bool.true_or]
    exact iff_of_true rfl (.equal same)
  · rw [Bool.or_eq_true, or_iff_right same]
    exact ⟨.of_near same, CountsAsClose.near relativeFinite absoluteFinite same⟩

/-! ## Vectors -/

/-- A test of the entries at one place, passed at every place. -/
theorem all_zip_iff {α β : Type} {n : Nat} (test : α × β → Bool) (a : Vector α n)
    (b : Vector β n) :
    (a.toArray.toList.zip b.toArray.toList).all test = true ↔
      ∀ i, test (a.get i, b.get i) = true := by
  rw [List.all_eq_true]
  constructor
  · intro passed i
    have inside : i.val < (a.toArray.toList.zip b.toArray.toList).length := by simp
    have here := passed _ (List.getElem_mem inside)
    rwa [List.getElem_zip] at here
  · intro passed pair listed
    obtain ⟨i, inside, rfl⟩ := List.mem_iff_getElem.mp listed
    rw [List.getElem_zip]
    exact passed ⟨i, by simpa using inside⟩

section Vectors

variable {n : Nat} (a b : Vector Float n) {relative absolute : Float}
  (relativeFinite : Scalar.finite relative) (absoluteFinite : Scalar.finite absolute)

include relativeFinite absoluteFinite

/-- Under finite tolerances, vectors of one length are compared entry by entry. -/
theorem closeThroughout_of_finite :
    ∃ close, closeThroughout a.toArray b.toArray relative absolute = .ok close ∧
      (close = true ↔ ∀ i, CountsAsClose relative absolute (a.get i) (b.get i)) := by
  have sizes : a.toArray.size = b.toArray.size := by rw [a.size_toArray, b.size_toArray]
  have compared : closeThroughout a.toArray b.toArray relative absolute =
      .ok ((a.toArray.toList.zip b.toArray.toList).all fun (x, y) =>
        closeTo (Scalar.abs relative) (Scalar.abs absolute) x y) := by
    unfold closeThroughout
    rw [relativeFinite, absoluteFinite, Bool.and_true, if_pos rfl, if_pos sizes]
    rfl
  refine ⟨_, compared, (all_zip_iff _ a b).trans (forall_congr' fun i => ?_)⟩
  exact closeTo_iff relativeFinite absoluteFinite

end Vectors

/-- Tolerances of one size are one tolerance. -/
theorem closeThroughout_of_sizes (a b : Array Float) {relative absolute relative' absolute' : Float}
    (relativeSize : Scalar.abs relative' = Scalar.abs relative)
    (absoluteSize : Scalar.abs absolute' = Scalar.abs absolute) :
    closeThroughout a b relative' absolute' = closeThroughout a b relative absolute := by
  have finite {x x' : Float} (size : Scalar.abs x' = Scalar.abs x) :
      Scalar.finite x' = Scalar.finite x := by
    rw [← finite_abs_eq, size, finite_abs_eq]
  unfold closeThroughout
  rw [finite relativeSize, finite absoluteSize, relativeSize, absoluteSize]

/-- Vectors of one length, with whatever entries, are close under finite tolerances exactly when
each pair of entries counts as close. So finite vectors are close when each difference is within
tolerance, and a vector with an entry that is no number is close to none. The signs of the
tolerances do not matter, and larger ones keep close what was close. -/
theorem closeThroughout_entries {n : Nat} (a b : Vector Float n) {relative absolute : Float}
    (relativeFinite : Scalar.finite relative) (absoluteFinite : Scalar.finite absolute) :
    ∃ close, closeThroughout a.toArray b.toArray relative absolute = .ok close ∧
      (close = true ↔ ∀ i, CountsAsClose relative absolute (a.get i) (b.get i)) ∧
      ((∀ i, Scalar.finite (a.get i) ∧ Scalar.finite (b.get i)) →
        (close = true ↔ ∀ i, Scalar.le (Scalar.abs (a.get i - b.get i))
          (allowance relative absolute (b.get i)))) ∧
      ((∃ i, Scalar.isNaN (a.get i) ∨ Scalar.isNaN (b.get i)) → close = false) ∧
      closeThroughout a.toArray b.toArray (-relative) absolute = .ok close ∧
      closeThroughout a.toArray b.toArray relative (-absolute) = .ok close ∧
      ∀ {relative' absolute' : Float}, Scalar.finite relative' → Scalar.finite absolute' →
        Scalar.le (Scalar.abs relative) (Scalar.abs relative') →
        Scalar.le (Scalar.abs absolute) (Scalar.abs absolute') → close = true →
          closeThroughout a.toArray b.toArray relative' absolute' = .ok true := by
  obtain ⟨close, compared, close_iff⟩ :=
    closeThroughout_of_finite a b relativeFinite absoluteFinite
  refine ⟨close, compared, close_iff, ?_, ?_, ?_, ?_, ?_⟩
  · intro finite
    rw [close_iff]
    exact forall_congr' fun i =>
      CountsAsClose.iff_of_finite relativeFinite absoluteFinite (finite i).1 (finite i).2
  · rintro ⟨i, none⟩
    rw [← Bool.not_eq_true, close_iff]
    intro all
    obtain ⟨aNumber, bNumber⟩ := (all i).numbers
    rw [aNumber, bNumber] at none
    exact none.elim Bool.false_ne_true Bool.false_ne_true
  · rw [closeThroughout_of_sizes _ _ (abs_opposite relative) rfl, compared]
  · rw [closeThroughout_of_sizes _ _ rfl (abs_opposite absolute), compared]
  · intro relative' absolute' relativeFinite' absoluteFinite' relativeAtMost absoluteAtMost isClose
    obtain ⟨close', compared', close_iff'⟩ :=
      closeThroughout_of_finite a b relativeFinite' absoluteFinite'
    rw [compared', close_iff'.mpr fun i => (close_iff.mp isClose i).mono relativeFinite
      absoluteFinite relativeFinite' relativeAtMost absoluteAtMost]

/-- A number beside an infinity, which stays close under a larger relative tolerance, and a vector
beside itself with an entry that is no number. -/
theorem closeThroughout_entries_binary64 :
    let a : Vector Float 2 := #v[1, Scalar.inf]
    let b : Vector Float 2 := #v[Scalar.inf, Scalar.inf]
    let none : Vector Float 2 := #v[1, Scalar.nan]
    closeThroughout a.toArray b.toArray 0.1 0 = .ok true ∧
      closeThroughout a.toArray b.toArray (-0.5) 0 = .ok true ∧
      closeThroughout none.toArray none.toArray 0.1 0 = .ok false := by
  intro a b none
  have relativeFinite : Scalar.finite (0.1 : Float) := by with_unfolding_all decide
  have absoluteFinite : Scalar.finite (0 : Float) := by with_unfolding_all decide
  have relativeFinite' : Scalar.finite (-0.5 : Float) := by with_unfolding_all decide
  have notZero : ¬Scalar.isZero (0.1 : Float) = true := by with_unfolding_all decide
  have numbers : ∀ i, Scalar.isNaN (a.get i) = false := by with_unfolding_all decide
  have infinite : ∀ i, Scalar.isInf (b.get i) := by with_unfolding_all decide
  obtain ⟨close, compared, close_iff, -, -, -, -, larger⟩ :=
    closeThroughout_entries a b relativeFinite absoluteFinite
  have isClose : close = true :=
    close_iff.mpr fun i => .unbounded (numbers i) (infinite i) notZero
  refine ⟨by rw [compared, isClose], ?_, ?_⟩
  · exact larger relativeFinite' absoluteFinite (by with_unfolding_all decide)
      (by with_unfolding_all decide) isClose
  · obtain ⟨close, compared, -, -, noNumber, -⟩ :=
      closeThroughout_entries none none relativeFinite absoluteFinite
    rw [compared, noNumber ⟨1, Or.inl (by with_unfolding_all decide)⟩]

/-- A finite number and the negative infinity are close to infinity, though neither of them is equal
to it and only one of them is finite. -/
theorem close_to_other_infinity :
    (closeThroughout #[1] #[Scalar.inf] (0.1 : Float) 0 = .ok true ∧
      ¬(Scalar.eq (1 : Float) Scalar.inf ∨
        Scalar.finite (1 : Float) ∧ Scalar.finite (Scalar.inf : Float) ∧
          Scalar.le (Scalar.abs (1 - Scalar.inf)) (allowance 0.1 0 Scalar.inf))) ∧
    closeThroughout #[-Scalar.inf] #[Scalar.inf] (0.1 : Float) 0 = .ok true ∧
      ¬(Scalar.eq (-Scalar.inf : Float) Scalar.inf ∨
        Scalar.finite (-Scalar.inf : Float) ∧ Scalar.finite (Scalar.inf : Float) ∧
          Scalar.le (Scalar.abs (-Scalar.inf - Scalar.inf)) (allowance 0.1 0 Scalar.inf)) := by
  have apart : ¬Scalar.eq (1 : Float) Scalar.inf = true := by with_unfolding_all decide
  have opposite : ¬Scalar.eq (-Scalar.inf : Float) Scalar.inf = true := by
    with_unfolding_all decide
  have infinite : ¬Scalar.finite (Scalar.inf : Float) = true := by with_unfolding_all decide
  refine ⟨⟨by with_unfolding_all rfl, ?_⟩, by with_unfolding_all rfl, ?_⟩
  · rintro (same | ⟨-, finite, -⟩)
    · exact apart same
    · exact infinite finite
  · rintro (same | ⟨-, finite, -⟩)
    · exact opposite same
    · exact infinite finite

end EchoState
