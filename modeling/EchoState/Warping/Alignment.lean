import EchoState.Distance
import EchoState.Warping.Rows
import EchoState.Warping.Samples
import EchoState.Warping.Table

/-!
# Alignments

The cheapest alignment of two series of samples. A path through the grid of sample pairs starts at
the first pair, ends at the last one, and at each step advances the first series, the second one,
or both; its cost adds up the distances of the samples it pairs. `series` aligns plain numbers and
`trajectories` the columns of two matrices. Neither looks at the samples beforehand, and with costs
that are no numbers the walk back along the path may leave the table, which stops the program.
-/

namespace EchoState.Warping

/-- The distance of two series, with the path that attains it when it was asked for and the
distance is not infinite. -/
structure Alignment (α : Type) where
  distance : α
  path : Option (List (Nat × Nat))

variable {α : Type} [Scalar α]

def align {n m : Nat} (cost : Fin n → Fin m → α) (plan : Plan α) : Alignment α :=
  match plan.storage with
  | .twoRows => ⟨TwoRows.distance plan.rule cost, none⟩
  | .oneRow => ⟨OneRow.distance plan.rule cost, none⟩
  | .table =>
      let table := Table.fill plan.rule cost
      let distance := Table.distance table
      if plan.wantsPath && !Scalar.eq distance Scalar.inf then
        ⟨distance, Table.path? plan.rule.penalty table⟩
      else ⟨distance, none⟩

/-- The walk back of an alignment has left the table: a path along the whole table was wanted, the
distance is not infinite, and yet there is none. -/
def Plan.lost (plan : Plan α) (alignment : Alignment α) : Bool :=
  plan.storage == .table && plan.wantsPath && !Scalar.eq alignment.distance Scalar.inf &&
    alignment.path.isNone

def Plan.deliver (plan : Plan α) (alignment : Alignment α) : Outcome α (Alignment α) :=
  if plan.lost alignment then .error .outsideBuffer else .ok alignment

theorem Plan.lost_of_unwanted {plan : Plan α} (unwanted : plan.wantsPath = false)
    (alignment : Alignment α) : plan.lost alignment = false := by
  unfold lost
  rw [unwanted, Bool.and_false, Bool.false_and, Bool.false_and]

theorem Plan.lost_of_infinite (plan : Plan α) {alignment : Alignment α}
    (infinite : Scalar.eq alignment.distance Scalar.inf = true) : plan.lost alignment = false := by
  unfold lost
  rw [infinite, Bool.not_true, Bool.and_false, Bool.false_and]

theorem Plan.deliver_of_not_lost {plan : Plan α} {alignment : Alignment α}
    (kept : plan.lost alignment = false) : plan.deliver alignment = .ok alignment :=
  if_neg (by rw [kept]; exact Bool.false_ne_true)

theorem Plan.deliver_eq_ok_iff {plan : Plan α} {alignment delivered : Alignment α} :
    plan.deliver alignment = .ok delivered ↔
      plan.lost alignment = false ∧ delivered = alignment := by
  unfold deliver
  cases plan.lost alignment with
  | true => exact ⟨nofun, nofun⟩
  | false => exact ⟨fun same => ⟨rfl, (Except.ok.inj same).symm⟩, fun same => same.2 ▸ rfl⟩

def series (a b : Array α) (options : Option (Options α)) : Outcome α (Alignment α) :=
  if a.isEmpty || b.isEmpty then .error (.of .emptySeries)
  else do
    let plan ← Options.resolve options
    plan.deliver
      (align (fun (i : Fin a.size) (j : Fin b.size) => Scalar.abs (a[i] - b[j])) plan)

/-- Aligns two trajectories with one sample a column. -/
def trajectories [Distances α] (a b : Operand α) (options : Option (Options α)) :
    Outcome α (Alignment α) :=
  if a.isAbsent || b.isAbsent then .error ⟨[.missingTrajectory], .badAlignment⟩
  else if a.rows ≠ b.rows then .error ⟨[.channels a.rows b.rows], .shapeMismatch⟩
  else if a.cols = 0 ∨ b.cols = 0 then .error (.of .emptySeries)
  else do
    let plan ← Options.resolve options
    if Scalar.isNaN plan.norm || Scalar.lt plan.norm 1 then
      .error ⟨[.norm plan.norm], .badAlignment⟩
    else do
      let left ← columns a
      let right ← columns b
      plan.deliver
        (align
          (fun (i : Fin left.size) (j : Fin right.size) =>
            Distances.between plan.norm left[i] right[j])
          plan)

end EchoState.Warping
