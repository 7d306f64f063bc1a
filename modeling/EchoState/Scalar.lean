/-!
# Scalars

The arithmetic that a reservoir computes with. Every algorithm of the library is stated over a
`Scalar`, so its loop order and its comparisons are part of the definition while the rounding is
left to the scalar; `Float` is the scalar that runs. Comparisons are Boolean because a value that
is not a number compares false with everything, itself included.
-/

namespace EchoState

/-- Numbers with field operations, infinities, a value that is no number, and the elementary
functions of the reservoir equations. -/
class Scalar (α : Type) extends Zero α, One α, Add α, Sub α, Mul α, Div α, Neg α where
  lt : α → α → Bool
  le : α → α → Bool
  /-- Numerical equality: the two zeros are equal, and what is no number equals nothing. -/
  eq : α → α → Bool
  isNaN : α → Bool
  isInf : α → Bool
  abs : α → α
  sqrt : α → α
  tanh : α → α
  atanh : α → α
  pow : α → α → α
  inf : α
  nan : α
  natural : Nat → α

class Legible (α : Type) where
  /-- The fewest digits that read back, with an exponent for very large and very small values. -/
  general : α → String
  /-- The given number of decimal places, or the fewest digits that read back when it is negative,
  and never an exponent. -/
  positional : Int → α → String

namespace Scalar

variable {α : Type} [Scalar α]

def finite (x : α) : Bool :=
  !isNaN x && !isInf x

@[inline]
def isZero (x : α) : Bool :=
  eq x 0

def positiveFinite (x : α) : Bool :=
  lt 0 x && !isInf x

/-- The quotient of two natural numbers, rounded once. -/
def ratio (numerator denominator : Nat) : α :=
  natural numerator / natural denominator

/-- The smallest of three values, where a comparison that fails passes over its left side. -/
def least (a b c : α) : α :=
  if lt a b then
    if lt a c then a else c
  else if lt b c then b else c

/-- The sum from zero, in increasing order of the index, of the terms whose index is kept. -/
@[inline]
def sumWhere (n : Nat) (keep : Fin n → Bool) (term : Fin n → α) : α :=
  n.fold (fun i inside total =>
    if keep ⟨i, inside⟩ then total + term ⟨i, inside⟩ else total) 0

@[simp]
theorem sumWhere_zero (keep : Fin 0 → Bool) (term : Fin 0 → α) : sumWhere 0 keep term = 0 :=
  rfl

theorem sumWhere_succ (n : Nat) (keep : Fin (n + 1) → Bool) (term : Fin (n + 1) → α) :
    sumWhere (n + 1) keep term =
      if keep (Fin.last n) then
        sumWhere n (fun i => keep i.castSucc) (fun i => term i.castSucc) + term (Fin.last n)
      else sumWhere n (fun i => keep i.castSucc) (fun i => term i.castSucc) :=
  rfl

end Scalar

end EchoState
