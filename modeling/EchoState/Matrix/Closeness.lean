import EchoState.Error

/-!
# Closeness

Two values are close when they are equal or differ by at most an absolute tolerance plus a
tolerance relative to the second one. Tolerances are taken by absolute value and must be finite.
-/

namespace EchoState

variable {α : Type} [Scalar α]

def closeTo (relative absolute a b : α) : Bool :=
  Scalar.eq a b || Scalar.le (Scalar.abs (a - b)) (absolute + relative * Scalar.abs b)

/-- Whether two vectors of one length are close entry by entry. -/
def closeThroughout (a b : Array α) (relative absolute : α) : Outcome α Bool :=
  Outcome.within (.kernel .closeness) <|
    if Scalar.finite relative && Scalar.finite absolute then
      if a.size = b.size then
        .ok ((a.toList.zip b.toList).all fun (x, y) =>
          closeTo (Scalar.abs relative) (Scalar.abs absolute) x y)
      else .error (.of .shapeMismatch)
    else .error (.of .notFinite)

end EchoState
