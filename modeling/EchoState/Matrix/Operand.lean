import EchoState.Matrix.Basic

/-!
# Operands

What callers hand over. A matrix operand may be absent, stored by this library, or only visible
through its reported shape and a way to read cells; such a view may report any shape, and what it
gives for a cell is a value that an error may come with. A vector operand may be absent too, which
is not the same as empty. The checks of this module are the only way from operands to typed vectors
and matrices.
-/

namespace EchoState

/-- What is found in a cell: a value, and an error with it if the reading failed. -/
inductive Reading (α : Type) where
  | ok (value : α)
  | failed (value : α) (error : Error α)

namespace Reading

variable {α : Type}

def value : Reading α → α
  | .ok value => value
  | .failed value _ => value

/-- The reading for those who look at its error first. -/
def outcome : Reading α → Outcome α α
  | .ok value => .ok value
  | .failed _ error => .error error

@[simp]
theorem value_ok (value : α) : (ok value).value = value :=
  rfl

@[simp]
theorem outcome_ok (value : α) : (ok value).outcome = .ok value :=
  rfl

@[simp]
theorem outcome_failed (value : α) (error : Error α) :
    (failed value error).outcome = .error error :=
  rfl

@[simp]
theorem outcome_eq_ok_iff {reading : Reading α} {value : α} :
    reading.outcome = .ok value ↔ reading = .ok value := by
  cases reading <;> simp

def error [Scalar α] (error : Error α) : Reading α :=
  .failed 0 error

/-- A result as a reading, with a zero next to an error. -/
def ofOutcome [Scalar α] : Outcome α α → Reading α
  | .ok value => .ok value
  | .error error => .error error

end Reading

/-- A matrix seen from outside: a reported shape and a reader for its cells. -/
structure View (α : Type) where
  rows : Int
  cols : Int
  read : Nat → Nat → Reading α

inductive Operand (α : Type) where
  | absent
  | stored (matrix : Matrix α)
  | view (view : View α)

/-- A vector as a caller hands it over; `none` is no vector at all. -/
abbrev Given (α : Type) : Type :=
  Option (Array α)

/-- Reads the entries that are still missing from a run of reads, in order. -/
def collectRest {α β : Type} {n : Nat} (f : Fin n → Outcome α β) :
    (missing : Nat) → missing ≤ n → Vector β (n - missing) → Outcome α (Vector β n)
  | 0, _, read => .ok read
  | missing + 1, inside, read => do
      let next ← f ⟨n - (missing + 1), by omega⟩
      collectRest f missing (by omega) ((read.push next).cast (by omega))

/-- The results of a counted run of reads, in order, or the first error; nothing is read after an
error. -/
def collect {α β : Type} {n : Nat} (f : Fin n → Outcome α β) : Outcome α (Vector β n) :=
  collectRest f n (Nat.le_refl n) (Vector.cast (Nat.sub_self n).symm #v[])

theorem collectRest_succ {α β : Type} {n : Nat} (f : Fin n → Outcome α β) (missing : Nat)
    (inside : missing + 1 ≤ n) (read : Vector β (n - (missing + 1))) :
    collectRest f (missing + 1) inside read =
      (f ⟨n - (missing + 1), by omega⟩).bind fun next =>
        collectRest f missing (by omega) ((read.push next).cast (by omega)) :=
  rfl

/-- What is left of a run of reads succeeds exactly when each of its reads does, and keeps what was
read before. -/
theorem collectRest_eq_ok_iff {α β : Type} {n : Nat} (f : Fin n → Outcome α β) (missing : Nat)
    (inside : missing ≤ n) (read : Vector β (n - missing)) (values : Vector β n) :
    collectRest f missing inside read = .ok values ↔
      (∀ (i : Nat) (early : i < n - missing), read[i] = values[i]) ∧
        ∀ i : Fin n, n - missing ≤ i.val → f i = .ok (values.get i) := by
  induction missing with
  | zero =>
      constructor
      · intro done
        have same : read = values := Except.ok.inj done
        subst same
        exact ⟨fun i early => rfl, fun i late => absurd i.isLt (Nat.not_lt.mpr late)⟩
      · rintro ⟨early, _⟩
        exact congrArg Except.ok (Vector.ext fun i inside => early i inside)
  | succ missing ih =>
      rw [collectRest_succ]
      cases next : f ⟨n - (missing + 1), by omega⟩ with
      | error error =>
          constructor
          · intro done
            exact absurd done (by simp [Except.bind])
          · rintro ⟨_, late⟩
            have here := late ⟨n - (missing + 1), by omega⟩ (Nat.le_refl _)
            rw [next] at here
            exact absurd here (by simp)
      | ok value =>
          simp only [Except.bind]
          rw [ih]
          constructor
          · rintro ⟨early, late⟩
            have here : value = values[n - (missing + 1)] := by
              have last := early (n - (missing + 1)) (by omega)
              simpa using last
            constructor
            · intro i before
              have kept := early i (by omega)
              simpa [Vector.getElem_push_lt before] using kept
            · intro i after
              by_cases first : i.val = n - (missing + 1)
              · have place : i = ⟨n - (missing + 1), by omega⟩ := Fin.ext first
                rw [place, next, here]
                rfl
              · exact late i (by omega)
          · rintro ⟨early, late⟩
            have here := late ⟨n - (missing + 1), by omega⟩ (Nat.le_refl _)
            rw [next] at here
            have value_eq : value = values[n - (missing + 1)] := Except.ok.inj here
            constructor
            · intro i before
              by_cases last : i = n - (missing + 1)
              · subst last
                simpa using value_eq
              · have early' : i < n - (missing + 1) := by omega
                simpa [Vector.getElem_push_lt early'] using early i early'
            · intro i after
              exact late i (by omega)

theorem collect_eq_ok_iff {α β : Type} {n : Nat} (f : Fin n → Outcome α β) (values : Vector β n) :
    collect f = .ok values ↔ ∀ i : Fin n, f i = .ok (values.get i) := by
  rw [collect, collectRest_eq_ok_iff]
  constructor
  · rintro ⟨_, late⟩ i
    exact late i (by omega)
  · intro each
    exact ⟨fun i early => absurd early (by omega), fun i _ => each i⟩
/-- The first result among the given number of positions from a start on; nothing is looked at
after it. -/
def firstFrom {β : Type} (f : Nat → Option β) : (count start : Nat) → Option β
  | 0, _ => none
  | count + 1, start =>
      match f start with
      | some result => some result
      | none => firstFrom f count (start + 1)

theorem firstFrom_eq_findSome? {β : Type} (f : Nat → Option β) (count start : Nat) :
    firstFrom f count start = (List.range' start count).findSome? f := by
  induction count generalizing start with
  | zero => rfl
  | succ count ih =>
      rw [firstFrom, List.range'_succ, List.findSome?_cons]
      cases f start with
      | some result => rfl
      | none => exact ih (start + 1)

namespace View

variable {α : Type}

/-- All cells of a view taken to have the given shape, read row by row. -/
def copy (v : View α) (rows cols : Nat) : Outcome α (Grid α rows cols) := do
  let cells ← collect fun position : Fin (rows * cols) =>
    (v.read (Grid.rowOf position) (Grid.colOf position)).outcome
  return ⟨cells⟩

variable [Scalar α]

def ofMatrix (m : Matrix α) : View α where
  rows := m.rows
  cols := m.cols
  read i j := .ofOutcome (m.cell i j)

def nonFiniteAt (v : View α) (i j : Nat) : Bool :=
  !Scalar.finite (v.read i j).value

def firstNonFinite? (v : View α) : Option (Nat × Nat) :=
  firstFrom (fun i =>
    firstFrom (fun j => if v.nonFiniteAt i j then some (i, j) else none) v.cols.toNat 0)
    v.rows.toNat 0

end View

namespace Operand

variable {α : Type}

def isAbsent : Operand α → Bool
  | .absent => true
  | _ => false

def rows : Operand α → Int
  | .absent => 0
  | .stored m => m.rows
  | .view v => v.rows

def cols : Operand α → Int
  | .absent => 0
  | .stored m => m.cols
  | .view v => v.cols

def checkPresent : Operand α → Outcome α Unit
  | .absent => .error ⟨[.check .present], .absent⟩
  | _ => .ok ()

def checkSquare (m : Operand α) : Outcome α Unit :=
  if m.rows = m.cols then .ok () else .error ⟨[.check .square], .shapeMismatch⟩

def shapeError (m : Operand α) (rows cols : Int) : Error α :=
  ⟨[.check .shape, .shapes m.rows m.cols rows cols], .shapeMismatch⟩

def checkShape (m : Operand α) (rows cols : Int) : Outcome α Unit := do
  Outcome.within (.check .shape) m.checkPresent
  if m.rows = rows ∧ m.cols = cols then .ok ()
  else .error (m.shapeError rows cols)

def checkProduct (a b : Operand α) : Outcome α Unit := do
  Outcome.within (.check .product) a.checkPresent
  Outcome.within (.check .product) b.checkPresent
  if a.cols = b.rows then .ok () else .error ⟨[.check .product], .shapeMismatch⟩

variable [Scalar α]

/-- The operand was given and no cell has an infinity or no number for its value. -/
def checkFinite : Operand α → Outcome α Unit
  | .absent => Outcome.within (.check .finite) (checkPresent .absent)
  | .stored m =>
      match m.sheet.firstNonFinite? with
      | some (i, j) => .error ⟨[.cell .scan i j], .notFinite⟩
      | none => .ok ()
  | .view v =>
      match v.firstNonFinite? with
      | some (i, j) => .error ⟨[.scanned i j], .notFinite⟩
      | none => .ok ()

/-- An operand of the wanted shape as a sheet of finite cells. Cells that are not finite
are reported before cells that cannot be read. -/
def toSheet (m : Operand α) (rows cols : Nat) : Outcome α (Sheet α rows cols) :=
  match m with
  | .absent => .error ⟨[.check .shape, .check .present], .absent⟩
  | .stored s =>
      if same : s.rows = rows ∧ s.cols = cols then do
        m.checkFinite
        return s.sheet.cast same.1 same.2
      else .error (m.shapeError rows cols)
  | .view v =>
      if v.rows = rows ∧ v.cols = cols then do
        m.checkFinite
        return .whole (← v.copy rows cols)
      else .error (m.shapeError rows cols)

def toGrid (m : Operand α) (rows cols : Nat) : Outcome α (Grid α rows cols) := do
  return (← m.toSheet rows cols).toGrid

end Operand

namespace Given

variable {α : Type}

/-- The number of entries; an absent vector has none. -/
def size : Given α → Nat
  | none => 0
  | some values => values.size

def ofLength (x : Given α) (n : Int) : Outcome α (Vector α n.toNat) :=
  match x with
  | none => .error ⟨[.check .length], .absent⟩
  | some values =>
      if same : (values.size : Int) = n then .ok ⟨values, by omega⟩
      else .error ⟨[.check .length], .shapeMismatch⟩

end Given

def checkFiniteVector {α : Type} [Scalar α] (values : Array α) : Outcome α Unit :=
  match values.findIdx? fun value => !Scalar.finite value with
  | some position => .error ⟨[.check .finiteVector, .index position], .notFinite⟩
  | none => .ok ()

def Given.ofFinite {α : Type} [Scalar α] (x : Given α) (n : Nat) : Outcome α (Vector α n) := do
  let values ← Outcome.within (.lengths x.size n) (x.ofLength n)
  checkFiniteVector values.toArray
  return values

end EchoState
