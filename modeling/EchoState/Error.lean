import EchoState.Scalar

/-!
# Errors

An error is a cause together with the trail of places it passed through, outermost first. The
cause decides what went wrong; the trail says where. The wording of both is fixed here, in
`Cause.text` and `Note.text`, and `Error.message` joins them. Where the program is stopped instead
of reporting an error, that is an outcome too: its trail begins where the program stopped.
-/

namespace EchoState

/-- Why a computation was asked to stop. -/
inductive Interruption where
  | canceled
  | deadlineExceeded
  deriving DecidableEq, Repr

inductive Cause where
  | absent
  | negativeDimension
  | outOfRange
  | shapeMismatch
  | notFinite
  | notConverged
  /-- A fixed point has a component outside the open interval from -1 to 1. -/
  | outsideDomain
  | emptySeries
  | badAlignment
  | pathNeedsTable
  | interrupted (reason : Interruption)
  | unreadable
  deriving DecidableEq, Repr

inductive Check where
  | present
  | square
  | shape
  | length
  | finiteVector
  | finite
  | product
  deriving DecidableEq, Repr

/-- The ways of touching one cell of a stored matrix. -/
inductive CellAccess where
  | get
  | set
  | apply
  | scan
  deriving DecidableEq, Repr

/-- The operations of linear algebra that report under their own name. -/
inductive Kernel where
  | product
  | vectorProduct
  | vectorProductInto
  | addVectorProductInto
  | closeness
  deriving DecidableEq, Repr

inductive Field where
  | state
  | input
  | bias
  | recurrent
  | inputWeights
  | readoutWeights
  deriving DecidableEq, Repr

inductive Task where
  | create
  | createFixedPoint
  | createRandom
  | settle
  | propagate
  | simulate
  | assign (field : Field)
  | zeros
  | highLow
  deriving DecidableEq, Repr

/-- One place that an error passed through, with the values that identify it. -/
inductive Note (α : Type) where
  | panic
  | check (rule : Check)
  | shapes (rows cols wantedRows wantedCols : Int)
  | index (position : Nat)
  | scanned (row col : Nat)
  | cell (access : CellAccess) (row col : Int)
  | row (i : Int)
  | cellsFor (rows cols : Int)
  | length (found : Nat)
  | kernel (operation : Kernel)
  | reading (row col : Nat)
  | storing (row col : Nat)
  | task (operation : Task)
  | lengths (found : Nat) (wanted : Nat)
  | stage (position : Nat)
  | sample (position : Nat)
  | time (position : Nat)
  | fixedPoint
  | fixedPointEntry (position : Nat) (value : α)
  | extent (width samples : Int)
  | level (value : α)
  | window (width : Int)
  | slopePenalty (value : α)
  | memoryMode (mode : Int)
  | missingTrajectory
  | channels (left right : Int)
  | norm (value : α)

structure Error (α : Type) where
  trail : List (Note α)
  cause : Cause

def Cause.text : Cause → String
  | .absent => "matrix: nil receiver"
  | .negativeDimension => "matrix: dimensions must be >= 0"
  | .outOfRange => "matrix: index out of range"
  | .shapeMismatch => "matrix: dimension mismatch"
  | .notFinite => "matrix: NaN or Inf encountered"
  | .notConverged => "reservoir: state did not converge"
  | .outsideDomain => "reservoir: fixed-point state outside (-1, 1)"
  | .emptySeries => "dtw: input sequences must be non-empty"
  | .badAlignment => "dtw: invalid input or options"
  | .pathNeedsTable => "dtw: ReturnPath requires MemoryMode=FullMatrix"
  | .interrupted .canceled => "context canceled"
  | .interrupted .deadlineExceeded => "context deadline exceeded"
  | .unreadable => "fault"

def Check.text : Check → String
  | .present => "ValidateNotNil"
  | .square => "ValidateSquare"
  | .shape => "ValidateShape"
  | .length => "ValidateVecLen"
  | .finiteVector => "ValidateFiniteVec"
  | .finite => "ValidateFinite"
  | .product => "ValidateMulCompatible"

def CellAccess.text : CellAccess → String
  | .get => "At"
  | .set => "Set"
  | .apply => "Apply"
  | .scan => "ValidateFinite"

def Kernel.text : Kernel → String
  | .product => "Mul"
  | .vectorProduct => "MatVec"
  | .vectorProductInto => "MatVecInto"
  | .addVectorProductInto => "MatVecAddInto"
  | .closeness => "AllCloseVec"

def Field.text : Field → String
  | .state => "State"
  | .input => "Input"
  | .bias => "Bias"
  | .recurrent => "Recurrent"
  | .inputWeights => "InputWeights"
  | .readoutWeights => "ReadoutWeights"

def Task.text : Task → String
  | .create => "New"
  | .createFixedPoint => "NewFixedPoint"
  | .createRandom => "NewRandom"
  | .settle => "Settle"
  | .propagate => "Propagate"
  | .simulate => "Simulate"
  | .assign field => "Set" ++ field.text
  | .zeros => "Zeros"
  | .highLow => "HighLow"

def pairText (row col : Int) : String :=
  "(" ++ toString row ++ "," ++ toString col ++ ")"

def Note.text {α : Type} [Legible α] : Note α → String
  | .panic => "panic"
  | .check rule => rule.text
  | .shapes rows cols wantedRows wantedCols =>
      "got " ++ toString rows ++ "x" ++ toString cols ++
        ", want " ++ toString wantedRows ++ "x" ++ toString wantedCols
  | .index position => "index " ++ toString position
  | .scanned i j => "ValidateFinite" ++ pairText i j
  | .cell access i j => "Dense." ++ access.text ++ pairText i j
  | .row i => "Dense.RawRow(" ++ toString i ++ ")"
  | .cellsFor rows cols => "NewDenseFrom" ++ pairText rows cols
  | .length found => "len " ++ toString found
  | .kernel operation => operation.text
  | .reading i j => "At" ++ pairText i j
  | .storing i j => "Set" ++ pairText i j
  | .task operation => "reservoir." ++ operation.text
  | .lengths found wanted => "len " ++ toString found ++ ", want " ++ toString wanted
  | .stage position => "stage " ++ toString position
  | .sample position => "input " ++ toString position
  | .time position => "t=" ++ toString position
  | .fixedPoint => "rInit"
  | .fixedPointEntry position value =>
      "rInit[" ++ toString position ++ "]=" ++ Legible.general value
  | .extent width samples => "k=" ++ toString width ++ " T=" ++ toString samples
  | .level value => "level " ++ Legible.general value
  | .window width => "window " ++ toString width
  | .slopePenalty value => "slope penalty " ++ Legible.general value
  | .memoryMode mode => "memory mode " ++ toString mode
  | .missingTrajectory => "nil trajectory"
  | .channels left right => "channels " ++ toString left ++ " vs " ++ toString right
  | .norm value => "norm " ++ Legible.general value

namespace Error

variable {α : Type}

def of (cause : Cause) : Error α :=
  ⟨[], cause⟩

def outsideBuffer : Error α :=
  ⟨[.panic], .outOfRange⟩

def negativeLength : Error α :=
  ⟨[.panic], .negativeDimension⟩

/-- The error seen from one place further out. -/
def within (note : Note α) (error : Error α) : Error α :=
  ⟨note :: error.trail, error.cause⟩

def message [Legible α] (error : Error α) : String :=
  ": ".intercalate (error.trail.map Note.text ++ [error.cause.text])

@[simp]
theorem cause_of (cause : Cause) : (of cause : Error α).cause = cause :=
  rfl

@[simp]
theorem cause_within (note : Note α) (error : Error α) : (error.within note).cause = error.cause :=
  rfl

end Error

abbrev Outcome (α β : Type) : Type :=
  Except (Error α) β

namespace Outcome

variable {α β : Type}

def within (note : Note α) (outcome : Outcome α β) : Outcome α β :=
  outcome.mapError (Error.within note)

@[simp]
theorem within_ok (note : Note α) (value : β) :
    within note (.ok value) = .ok value :=
  rfl

@[simp]
theorem within_error (note : Note α) (error : Error α) :
    within note (.error error : Outcome α β) = .error (error.within note) :=
  rfl

end Outcome

end EchoState
