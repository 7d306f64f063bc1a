import EchoState.Proofs.Matrix.Representation
import EchoState.Proofs.Scalar.Float

/-!
# Matrix-vector kernels

One kernel returns the product of a matrix and a vector, one writes it over a buffer and one adds it
to a buffer. On a stored matrix they pass over the zero entries of the vector, behind a reader over
none. A finite multiple of a zero is a zero and no sum from zero up is the negative zero, so over
finite cells what is passed over does not count, and the kernels agree. They refuse the same
operands and vectors, and a refused call has not touched the buffer.
-/

namespace EchoState

section Reads

variable {α β : Type} {n : Nat}

theorem isOk_collect_iff (f : Fin n → Outcome α β) :
    (collect f).isOk ↔ ∀ i, (f i).isOk := by
  simp only [Outcome.isOk_iff, collect_eq_ok_iff]
  constructor
  · rintro ⟨values, each⟩ i
    exact ⟨_, each i⟩
  · intro each
    choose value succeeds using each
    refine ⟨Vector.ofFn value, fun i => (succeeds i).trans (congrArg Except.ok ?_)⟩
    exact (Vector.getElem_ofFn i.isLt).symm

/-- A buffer is overwritten to its end exactly when every result is there. -/
theorem isOk_overwriteWhile_iff (put : α → β → α) (result : Fin n → Outcome α β)
    (buffer : Vector α n) :
    (overwriteWhile put result buffer).1.isOk ↔ ∀ i, (result i).isOk := by
  have run : (overwriteWhile put result buffer).1.isOk ↔
      ∀ i : Fin n, i.val < n → (result i).isOk := by
    -- so far all is well as long as the results that were looked at are there
    refine fold_invariant (fun count (written : Outcome α Unit × Vector α n) =>
      written.1.isOk ↔ ∀ i : Fin n, i.val < count → (result i).isOk) _ _ ?_ ?_
    · exact ⟨fun _ i early => absurd early (Nat.not_lt_zero _), fun _ => rfl⟩
    · rintro count inside ⟨outcome, y⟩ before
      have split : (∀ i : Fin n, i.val < count + 1 → (result i).isOk) ↔
          outcome.isOk ∧ (result ⟨count, inside⟩).isOk := by
        rw [before]
        constructor
        · exact fun each => ⟨fun i early => each i (by omega), each _ (Nat.lt_succ_self count)⟩
        · rintro ⟨each, last⟩ i early
          rcases Nat.lt_succ_iff_lt_or_eq.mp early with earlier | here
          · exact each i earlier
          · obtain rfl : i = ⟨count, inside⟩ := Fin.ext here
            exact last
      rw [split]
      cases outcome with
      | error error => exact ⟨nofun, nofun⟩
      | ok done =>
          cases result ⟨count, inside⟩ with
          | error error => exact ⟨nofun, nofun⟩
          | ok value => exact ⟨fun _ => ⟨rfl, rfl⟩, fun _ => rfl⟩
  exact run.trans ⟨fun each i => each i i.isLt, fun each i _ => each i⟩

theorem overwriteWhile_of_ok (put : α → β → α) {result : Fin n → Outcome α β} {value : Fin n → β}
    (succeeds : ∀ i, result i = .ok (value i)) (buffer : Vector α n) :
    overwriteWhile put result buffer =
      (.ok (), overwrite buffer fun i old => put old (value i)) := by
  refine (fold_project (fun y : Vector α n => ((.ok () : Outcome α Unit), y)) _ _ ?_ buffer).symm
  intro i inside y
  simp only [succeeds]

end Reads

namespace Given

variable {α : Type}

def Fits (x : Given α) (n : Int) : Prop :=
  ∃ values, x = some values ∧ (values.size : Int) = n

theorem isOk_ofLength_iff {x : Given α} {n : Int} : (x.ofLength n).isOk ↔ x.Fits n := by
  cases x with
  | none => exact ⟨nofun, nofun⟩
  | some values =>
      unfold ofLength Fits
      dsimp only
      by_cases same : (values.size : Int) = n
      · rw [dif_pos same]
        exact ⟨fun _ => ⟨values, rfl, same⟩, fun _ => rfl⟩
      · rw [dif_neg same]
        refine ⟨nofun, ?_⟩
        rintro ⟨_, ⟨⟩, same'⟩
        exact absurd same' same

end Given

variable {α : Type} [Scalar α] {rows cols : Nat}

namespace Operand

/-! ## What the kernels refuse -/

theorem isOk_vectorProduct_stored (s : Matrix α) (x : Given α) :
    ((stored s).vectorProduct x).isOk ↔ x.Fits s.cols := by
  unfold vectorProduct
  dsimp only
  rw [Outcome.isOk_within, Outcome.isOk_bind_iff, ← Given.isOk_ofLength_iff, Outcome.isOk_iff]
  exact exists_congr fun entries => and_iff_left rfl

theorem isOk_vectorProduct_view (v : View α) (x : Given α) :
    ((view v).vectorProduct x).isOk ↔ ∃ entries, x.ofLength v.cols = .ok entries ∧
      0 ≤ v.rows ∧ ∀ i : Fin v.rows.toNat, (v.rowDot entries i).isOk := by
  unfold vectorProduct
  dsimp only
  rw [Outcome.isOk_within, Outcome.isOk_bind_iff]
  refine exists_congr fun entries => and_congr_right fun _ => ?_
  by_cases negative : v.rows < 0
  · rw [if_pos negative]
    exact ⟨nofun, fun made => absurd made.1 (Int.not_le.mpr negative)⟩
  · rw [if_neg negative, ← isOk_collect_iff, Outcome.isOk_bind_iff, Outcome.isOk_iff,
      and_iff_right (Int.not_lt.mp negative)]
    exact exists_congr fun y => and_iff_left rfl

theorem fits_of_isOk_vectorProduct {p : Operand α} {x : Given α} (made : (p.vectorProduct x).isOk) :
    p ≠ .absent ∧ x.Fits p.cols := by
  cases p with
  | absent => cases made
  | stored s => exact ⟨nofun, (isOk_vectorProduct_stored s x).mp made⟩
  | view v =>
      obtain ⟨entries, given, _⟩ := (isOk_vectorProduct_view v x).mp made
      exact ⟨nofun, Given.isOk_ofLength_iff.mp (Outcome.isOk_iff.mpr ⟨entries, given⟩)⟩

theorem isOk_vectorProductWith_iff (put : α → α → α) (p : Operand α) (x dst : Given α) :
    (vectorProductWith put p x dst).1.isOk ↔ (p.vectorProduct x).isOk ∧ dst.Fits p.rows := by
  rw [← Given.isOk_ofLength_iff]
  unfold vectorProductWith
  cases p with
  | absent => exact ⟨nofun, nofun⟩
  | stored s =>
      rw [isOk_vectorProduct_stored, ← Given.isOk_ofLength_iff]
      dsimp only [Operand.rows]
      cases x.ofLength s.cols with
      | error error => exact ⟨nofun, nofun⟩
      | ok entries =>
          cases dst.ofLength s.rows with
          | error error => exact ⟨nofun, nofun⟩
          | ok buffer => exact ⟨fun _ => ⟨rfl, rfl⟩, fun _ => rfl⟩
  | view v =>
      rw [isOk_vectorProduct_view]
      dsimp only [Operand.rows]
      cases x.ofLength v.cols with
      | error error => exact ⟨nofun, nofun⟩
      | ok entries =>
          cases long : dst.ofLength v.rows with
          | error error => exact ⟨nofun, nofun⟩
          | ok buffer =>
              have rows : 0 ≤ v.rows := by
                obtain ⟨values, -, size⟩ :=
                  Given.isOk_ofLength_iff.mp (Outcome.isOk_iff.mpr ⟨buffer, long⟩)
                exact size ▸ Int.natCast_nonneg values.size
              refine (isOk_overwriteWhile_iff put (fun i => v.rowDot entries i) buffer).trans ?_
              constructor
              · exact fun each => ⟨⟨entries, rfl, rows, each⟩, rfl⟩
              · rintro ⟨⟨_, ⟨⟩, _, each⟩, _⟩
                exact each

/-- A buffer is left as it was unless operand, vector and buffer fit each other. -/
theorem vectorProductWith_of_misfit (put : α → α → α) {p : Operand α} {x dst : Given α}
    (misfit : p = .absent ∨ ¬x.Fits p.cols ∨ ¬dst.Fits p.rows) :
    (vectorProductWith put p x dst).2 = dst := by
  simp only [← Given.isOk_ofLength_iff] at misfit
  unfold vectorProductWith
  cases p with
  | absent => rfl
  | stored s =>
      dsimp only [Operand.rows, Operand.cols] at misfit ⊢
      cases xGiven : x.ofLength s.cols with
      | error error => rfl
      | ok entries =>
          cases dstGiven : dst.ofLength s.rows with
          | error error => rfl
          | ok buffer => simp [xGiven, dstGiven, Except.isOk, Except.toBool] at misfit
  | view v =>
      dsimp only [Operand.rows, Operand.cols] at misfit ⊢
      cases xGiven : x.ofLength v.cols with
      | error error => rfl
      | ok entries =>
          cases dstGiven : dst.ofLength v.rows with
          | error error => rfl
          | ok buffer => simp [xGiven, dstGiven, Except.isOk, Except.toBool] at misfit

variable (α) in
/-- A kernel that fills a buffer refuses what the product with a vector refuses and a buffer of the
wrong length; when operand, vector and buffer do not fit each other the buffer is left as it was. -/
structure RefusesLikeProduct (fill : Given α → Operand α → Given α → Outcome α Unit × Given α) :
    Prop where
  isOk_iff : ∀ p x dst, (fill dst p x).1.isOk ↔ (p.vectorProduct x).isOk ∧ dst.Fits p.rows
  kept : ∀ (p : Operand α) (x dst : Given α),
    p = .absent ∨ ¬x.Fits p.cols ∨ ¬dst.Fits p.rows → (fill dst p x).2 = dst

theorem refusesLikeProduct (put : α → α → α) (note : Note α) :
    RefusesLikeProduct α fun dst p x =>
      let (outcome, y) := vectorProductWith put p x dst
      (outcome.within note, y) where
  isOk_iff p x dst := by
    dsimp only
    rw [Outcome.isOk_within]
    exact isOk_vectorProductWith_iff put p x dst
  kept p x dst misfit := vectorProductWith_of_misfit put misfit

/-! ## What the kernels compute -/

/-- Behind a reader a row is summed over all entries of the vector. -/
theorem Shows.dotUpTo_eq {m : Sheet α rows cols} {v : View α} (shows : Shows m (.view v))
    (x : Vector α cols) (i : Fin rows) {count : Nat} (inside : count ≤ cols) :
    v.dotUpTo i x count inside = .ok (Scalar.sumWhere count (fun _ => true) fun j =>
      m.get i (j.castLE inside) * x.get (j.castLE inside)) := by
  induction count with
  | zero => rfl
  | succ count ih =>
      have cell : v.read i count = .ok (m.get i ⟨count, inside⟩) := shows.2.2 i ⟨count, inside⟩
      rw [View.dotUpTo, ih, cell]
      rfl

theorem Shows.isOk_vectorProduct_iff {m : Sheet α rows cols} {p : Operand α} (shows : p.Shows m)
    (x : Given α) : (p.vectorProduct x).isOk ↔ x.Fits cols := by
  constructor
  · intro made
    exact shows.cols_eq ▸ (fits_of_isOk_vectorProduct made).2
  · rintro ⟨values, rfl, size⟩
    cases p with
    | absent => exact shows.elim
    | stored s =>
        obtain rfl : s = ⟨rows, cols, m⟩ := shows
        exact (isOk_vectorProduct_stored _ _).mpr ⟨values, rfl, size⟩
    | view v =>
        obtain ⟨read, rfl⟩ := shows.exists_read
        obtain rfl : values.size = cols := Int.ofNat_inj.mp size
        refine (isOk_vectorProduct_view _ _).mpr
          ⟨values.toVector, Given.ofLength_toArray values.toVector, Int.natCast_nonneg rows,
            fun i => ?_⟩
        exact Outcome.isOk_iff.mpr ⟨_, shows.dotUpTo_eq values.toVector i (Nat.le_refl _)⟩

variable [SignedZeroScalar α]

/-- A row of finite cells may be summed over all entries of a vector. -/
theorem rowDot_eq_sum {m : Sheet α rows cols} {i : Fin rows}
    (finite : ∀ j, Scalar.finite (m.get i j) = true) (x : Vector α cols) :
    m.rowDot x i = Scalar.sumWhere cols (fun _ => true) fun j => m.get i j * x.get j := by
  refine Scalar.sumWhere_eq_sum cols _ _ fun j left => ?_
  exact SignedZeroScalar.isZero_mul_right (finite j) (by simpa using left)

/-- Over finite cells a row has the same sum on a stored matrix and behind a reader. -/
theorem Shows.rowDot_eq {m : Sheet α rows cols} {v : View α} (shows : Shows m (.view v))
    (finite : ∀ i j, Scalar.finite (m.get i j) = true) (x : Vector α cols) (i : Fin rows) :
    v.rowDot x i = .ok (m.rowDot x i) := by
  rw [rowDot_eq_sum (finite i) x]
  exact shows.dotUpTo_eq x i (Nat.le_refl cols)

theorem Shows.vectorProduct_eq {m : Sheet α rows cols} {p : Operand α} (shows : p.Shows m)
    (finite : ∀ i j, Scalar.finite (m.get i j) = true) (x : Vector α cols) :
    p.vectorProduct (some x.toArray) = .ok (m.mulVec x).toArray := by
  have given := Given.ofLength_toArray x
  unfold vectorProduct
  cases p with
  | absent => exact shows.elim
  | stored s =>
      obtain rfl : s = ⟨rows, cols, m⟩ := shows
      simp only [given]
      rfl
  | view v =>
      obtain ⟨read, rfl⟩ := shows.exists_read
      have collected : collect (fun i : Fin rows => (⟨rows, cols, read⟩ : View α).rowDot x i) =
          .ok (m.mulVec x) := by
        refine (collect_eq_ok_iff _ _).mpr fun i => (shows.rowDot_eq finite x i).trans ?_
        exact congrArg Except.ok (Sheet.get_mulVec m x i).symm
      show Outcome.within _ (Given.ofLength (some x.toArray) cols >>= _) = _
      rw [given, Outcome.ok_bind, if_neg (Int.not_lt.mpr (Int.natCast_nonneg rows))]
      show Outcome.within _ (collect (fun i : Fin rows =>
        (⟨rows, cols, read⟩ : View α).rowDot x i) >>= _) = _
      rw [collected]
      rfl

/-- A kernel fills a buffer with the sums of the rows, whatever shows the matrix. -/
theorem Shows.vectorProductWith_eq (put : α → α → α) {m : Sheet α rows cols} {p : Operand α}
    (shows : p.Shows m) (finite : ∀ i j, Scalar.finite (m.get i j) = true) (x : Vector α cols)
    (buffer : Vector α rows) :
    vectorProductWith put p (some x.toArray) (some buffer.toArray) =
      (.ok (), some (overwrite buffer fun i old => put old (m.rowDot x i)).toArray) := by
  cases p with
  | absent => exact shows.elim
  | stored s =>
      obtain rfl : s = ⟨rows, cols, m⟩ := shows
      exact vectorProductWith_stored put ⟨rows, cols, m⟩ x buffer
  | view v =>
      obtain ⟨read, rfl⟩ := shows.exists_read
      have filled := overwriteWhile_of_ok put (shows.rowDot_eq finite x) buffer
      unfold vectorProductWith
      dsimp only
      rw [show Given.ofLength _ (rows : Int) = .ok buffer from Given.ofLength_toArray buffer,
        show Given.ofLength _ (cols : Int) = .ok x from Given.ofLength_toArray x]
      exact congrArg (fun written => (written.1, some written.2.toArray)) filled

/-- For a matrix of finite cells that can be counted and a vector of its width there is one
product, each entry the sum of a row from left to right, starting at zero. Whatever shows the
matrix, stored or behind a reader, one kernel returns this product, one leaves it in the buffer
whatever that held, and one adds it to what the buffer held. The kernels refuse an absent matrix and
a vector that does not fit, those that fill a buffer also a buffer that does not fit, and then the
buffer is as it was. -/
theorem vectorProducts_across_representations (fits : rows * cols < wordLimit)
    {m : Sheet α rows cols} (finite : ∀ i j, Scalar.finite (m.get i j) = true) :
    (∀ x : Vector α cols, ∃ y : Vector α rows,
      (∀ i, y.get i =
        (List.finRange cols).foldl (fun total j => total + m.get i j * x.get j) 0) ∧
      ∀ p : Operand α, p.Shows m →
        p.vectorProduct (some x.toArray) = .ok y.toArray ∧
        ∀ dst : Vector α rows,
          vectorProductInto (some dst.toArray) p (some x.toArray) = (.ok (), some y.toArray) ∧
          addVectorProductInto (some dst.toArray) p (some x.toArray) =
            (.ok (), some (Vector.ofFn fun i => dst.get i + y.get i).toArray)) ∧
    (∀ (p : Operand α) (x : Given α), p.Shows m ∨ p = .absent →
      ((p.vectorProduct x).isOk ↔ p ≠ .absent ∧ x.Fits cols)) ∧
    RefusesLikeProduct α vectorProductInto ∧
    RefusesLikeProduct α addVectorProductInto := by
  obtain ⟨m, rfl⟩ := Sheet.exists_grid fits m
  refine ⟨fun x => ⟨(Sheet.whole m).mulVec x, fun i => ?_,
      fun p shows => ⟨?_, fun dst => ⟨?_, ?_⟩⟩⟩,
    fun p x shown => ?_, refusesLikeProduct (fun _ dot => dot) (.kernel .vectorProductInto),
    refusesLikeProduct (fun old dot => old + dot) (.kernel .addVectorProductInto)⟩
  · rw [Sheet.get_mulVec, rowDot_eq_sum (finite i), Scalar.sumWhere_eq_foldl,
      List.filter_eq_self.mpr fun _ _ => rfl]
  · exact shows.vectorProduct_eq finite x
  · have filled := shows.vectorProductWith_eq (fun _ dot => dot) finite x dst
    have product :
        (overwrite dst fun i _ => (Sheet.whole m).rowDot x i) = (Sheet.whole m).mulVec x :=
      Vector.ext fun i inside => by rw [getElem_overwrite, Sheet.mulVec, Vector.getElem_ofFn]
    rw [product] at filled
    exact congrArg (fun written =>
      (Outcome.within (.kernel .vectorProductInto) written.1, written.2)) filled
  · have filled := shows.vectorProductWith_eq (fun old dot => old + dot) finite x dst
    have sums : (overwrite dst fun i old => old + (Sheet.whole m).rowDot x i) =
        Vector.ofFn fun i => dst.get i + ((Sheet.whole m).mulVec x).get i :=
      Vector.ext fun i inside => by
        rw [getElem_overwrite, Vector.getElem_ofFn, Sheet.get_mulVec]
        rfl
    rw [sums] at filled
    exact congrArg (fun written =>
      (Outcome.within (.kernel .addVectorProductInto) written.1, written.2)) filled
  · rcases shown with shows | rfl
    · have given : p ≠ .absent := by
        rintro rfl
        exact shows
      exact (shows.isOk_vectorProduct_iff x).trans (iff_and_self.mpr fun _ => given)
    · exact ⟨nofun, fun given => absurd rfl given.1⟩

/-- In binary64, behind a reader, a vector with an infinity and a zero of either sign: the infinity
comes through, what is passed over on the stored matrix adds nothing, and a vector that is too short
or a missing buffer is refused. -/
theorem vectorProducts_across_representations_binary64 :
    let m : Sheet Float 2 3 := .whole ⟨#v[1, 2, -3, 0.5, -0, 4]⟩
    let hidden : Operand Float := .view (.ofMatrix ⟨2, 3, m⟩)
    let x : Vector Float 3 := #v[Scalar.inf, -0, 0]
    2 * 3 < wordLimit ∧ (∀ i j, Scalar.finite (m.get i j) = true) ∧ hidden.Shows m ∧
      hidden.vectorProduct (some x.toArray) = (stored ⟨2, 3, m⟩).vectorProduct (some x.toArray) ∧
      (vectorProductInto (some #[Scalar.nan, 7]) hidden (some x.toArray)).2 =
        (vectorProductInto (some #[0, 0]) (.stored ⟨2, 3, m⟩) (some x.toArray)).2 ∧
      ¬(hidden.vectorProduct (some #[1, 2])).isOk ∧
      addVectorProductInto none hidden (some x.toArray) =
        ((addVectorProductInto none hidden (some x.toArray)).1, none) := by
  intro m hidden x
  have finite : ∀ i j, Scalar.finite (m.get i j) = true := by with_unfolding_all decide
  have behind : hidden.Shows m := shows_ofMatrix m
  have kept : (stored ⟨2, 3, m⟩).Shows m := rfl
  have fits : 2 * 3 < wordLimit := by decide
  obtain ⟨products, refusals, -, adding⟩ := vectorProducts_across_representations fits finite
  obtain ⟨y, -, each⟩ := products x
  refine ⟨fits, finite, behind, (each _ behind).1.trans (each _ kept).1.symm, ?_, ?_, ?_⟩
  · exact congrArg Prod.snd (((each _ behind).2 #v[Scalar.nan, 7]).1.trans
      ((each _ kept).2 #v[0, 0]).1.symm)
  · rw [refusals hidden _ (.inl behind)]
    rintro ⟨-, _, ⟨⟩, size⟩
    exact absurd size (by decide)
  · have noBuffer : ¬Given.Fits (none : Given Float) hidden.rows := nofun
    exact Prod.ext rfl (adding.kept hidden _ none (.inr (.inr noBuffer)))

end Operand

end EchoState
