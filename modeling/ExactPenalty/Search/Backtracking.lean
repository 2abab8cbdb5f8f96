import ExactPenalty.Search.Trial

/-!
# The backtracking search

The step is halved until the penalty decreases sufficiently; nothing is asked of the slope there.
The direction may be brought to unit length first, and then the step is measured along the
normalised direction.
-/

set_option autoImplicit false

namespace ExactPenalty

open Scalar Linear

variable {σ R : Type} [Scalar R] {n : Nat}

/-- The same task along the direction of unit length; a direction without length stays as it is. -/
def SearchTask.normalized (task : SearchTask R n) : SearchTask R n :=
  let length := norm₂ task.direction
  if 0 < length then
    { task with direction := task.direction.map (· / length), slope := task.slope / length }
  else task

/-- The task as backtracking sees it. -/
def SearchTask.forBacktracking (task : SearchTask R n) (o : SearchOptions R) : SearchTask R n :=
  if o.unitDirection then task.normalized else task

/-- The steps along a direction of the given length: one more than the first of them may be halved.
Where the length is infinite, the number of halvings is the largest that 64 bits can hold; so the sum
overflows, and wraps around to zero. -/
def halvingSteps (length : R) : Nat :=
  if isFinite (1e5 * length) = true ∨ isNaN (1e5 * length) = true then bisectionLimit length + 1 else 0

/-- The evaluations that backtracking may use: one for each of its steps, within the cap that the slope
of the given direction calls for. -/
def SearchTask.backtrackingLimit (task : SearchTask R n) (o : SearchOptions R) : Nat :=
  let steps := halvingSteps (norm₂ (task.forBacktracking o).direction)
  match task.evaluationCap o with
  | some cap => min cap steps
  | none => steps

/-- Tries a step and its halvings, `left` steps in all.  Refused look-ups are passed over. -/
def halveFrom (ask : Oracle σ R n) (task : SearchTask R n) (o : SearchOptions R)
    (exhausted : SearchFailure R) :
    (left evaluations : Nat) → (step : R) → (best : Option (Trial R n)) →
      StateM σ (SearchResult R n)
  | 0, evaluations, _, best => return .error { reason := exhausted, evaluations, kept := best }
  | left + 1, evaluations, step, best => do
    match ← ask (task.pointAt step) with
    | .stopped => return .error { reason := .budgetExhausted, evaluations, kept := best }
    | .rejected => halveFrom ask task o exhausted left (evaluations + 1) (step * 0.5) best
    | .evaluated observation =>
      let trial := Trial.ofObservation task step observation
      if trial.isUsable = true ∧ trial.Decreases task o then
        return .ok { trial, evaluations := evaluations + 1 }
      else
        halveFrom ask task o exhausted left (evaluations + 1) (step * 0.5)
          (Trial.keepLower best trial)

/-- Searches for a step of sufficient decrease among the initial step and its halvings. -/
def backtracking (ask : Oracle σ R n) (task : SearchTask R n) (o : SearchOptions R) :
    StateM σ (SearchResult R n) :=
  let exhausted := if 0 ≤ task.slope then .nonDescent else .armijoNotSatisfied
  halveFrom ask (task.forBacktracking o) o exhausted (task.backtrackingLimit o) 0 o.initialStep none

end ExactPenalty
