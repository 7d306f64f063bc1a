import EchoState.Matrix.Basic

/-!
# Matrix text

A matrix is written one row a line, in square brackets, its values separated by a comma and a
blank. A matrix without rows is the empty text.
-/

namespace EchoState

def bracketed {α : Type} [Legible α] (places : Int) (values : List α) : String :=
  "[" ++ ", ".intercalate (values.map (Legible.positional places)) ++ "]"

namespace Matrix

variable {α : Type} [Scalar α] [Legible α]

/-- The rows with the given number of decimal places; a negative number means the fewest digits
that read back. -/
def format (places : Int) (m : Matrix α) : String :=
  String.join ((List.finRange m.rows).map fun i => bracketed places (m.sheet.row i).toList ++ "\n")

def text (m : Matrix α) : String :=
  m.format (-1)

end Matrix

end EchoState
