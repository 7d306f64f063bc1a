import EchoState.Error

/-!
# Alignment options

Options are what callers write down; a plan is what an alignment follows. `Options.resolve` turns
one into the other and refuses values that no alignment can follow. The first unusable value, in
the order window, penalty, memory mode, path, decides the error.
-/

namespace EchoState.Warping

structure Options (α : Type) where
  /-- The largest allowed distance of a cell from the diagonal; -1 allows every cell. -/
  window : Int
  slopePenalty : α
  wantsPath : Bool
  /-- How the table is kept: 0 as a whole, 1 as two rows, 2 as one row. -/
  memoryMode : Int
  norm : α

inductive Storage where
  | table
  | twoRows
  | oneRow
  deriving DecidableEq, Repr

structure Rule (α : Type) where
  band : Option Nat
  penalty : α

structure Plan (α : Type) where
  rule : Rule α
  storage : Storage
  wantsPath : Bool
  norm : α

namespace Options

variable {α : Type} [Scalar α]

/-- No band, no penalty, no path, two rows, Euclidean samples. -/
def standard : Options α where
  window := -1
  slopePenalty := 0
  wantsPath := false
  memoryMode := 1
  norm := Scalar.natural 2

def blank : Options α where
  window := 0
  slopePenalty := 0
  wantsPath := false
  memoryMode := 0
  norm := 0

def band (options : Options α) : Option Nat :=
  if options.window < 0 then none else some options.window.toNat

def storage? (options : Options α) : Option Storage :=
  if options.memoryMode = 0 then some .table
  else if options.memoryMode = 1 then some .twoRows
  else if options.memoryMode = 2 then some .oneRow
  else none

def plan (options : Options α) : Outcome α (Plan α) :=
  if options.window < -1 then
    .error ⟨[.window options.window], .badAlignment⟩
  else if !Scalar.finite options.slopePenalty || Scalar.lt options.slopePenalty 0 then
    .error ⟨[.slopePenalty options.slopePenalty], .badAlignment⟩
  else
    match options.storage? with
    | none => .error ⟨[.memoryMode options.memoryMode], .badAlignment⟩
    | some storage =>
        if options.wantsPath && storage != .table then .error (.of .pathNeedsTable)
        else
          .ok
            { rule := ⟨options.band, options.slopePenalty⟩
              storage
              wantsPath := options.wantsPath
              norm := options.norm }

def resolve (options : Option (Options α)) : Outcome α (Plan α) :=
  (options.getD standard).plan

end Options

namespace Rule

variable {α : Type}

def outside (rule : Rule α) (i j : Nat) : Bool :=
  match rule.band with
  | none => false
  | some width => width < (i - j) + (j - i)

/-- The value of a cell from its own cost and its diagonal, upper and left neighbours. -/
def cell [Scalar α] (rule : Rule α) {n m : Nat} (cost : Fin n → Fin m → α) (i : Fin n) (j : Fin m)
    (diagonal above left : α) : α :=
  if rule.outside i j then Scalar.inf
  else cost i j + Scalar.least diagonal (above + rule.penalty) (left + rule.penalty)

end Rule

end EchoState.Warping
