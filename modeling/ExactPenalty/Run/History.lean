import ExactPenalty.Curvature
import ExactPenalty.Ladder
import ExactPenalty.Iterate
import ExactPenalty.Stationarity

/-!
# The history of a run

* `IterationRecord` — an iterate, its stationarity, and the step that led to it.
* `Tracker` — the best feasible and the most feasible iterate seen so far.  Both prefer the earlier
  one of two that are equally good.
-/

set_option autoImplicit false

namespace ExactPenalty

open Scalar

variable {R : Type} [Scalar R] {n : Nat}

/-! ## Records -/

/-- How an iterate was reached from the one before. -/
structure StepRecord (R : Type) where
  level : Level
  /-- Steering was engaged at the iterate before. -/
  engaged : Bool
  step : R
  /-- The step was taken although every rung had failed. -/
  forced : Bool
  /-- Evaluations of all line searches of the iteration. -/
  evaluations : Nat
  /-- How often the penalty parameter was lowered because no step could be bracketed. -/
  reattempts : Nat
  /-- What became of the secant pair. -/
  update : SecantUpdate R
  /-- The penalty parameter after the step. -/
  mu : R

/-- One iterate of a run. -/
structure IterationRecord (R : Type) (n : Nat) where
  iteration : Nat
  iterate : Iterate R n
  stationarity : Stationarity R
  /-- Absent at the initial point. -/
  step : Option (StepRecord R)

/-! ## Tracked iterates -/

/-- The iterates worth remembering. -/
structure Tracker (R : Type) (n : Nat) where
  /-- The feasible iterate with the lowest objective. -/
  bestFeasible : Option (Iterate R n)
  /-- The iterate with the smallest violation, and among those the lowest objective. -/
  mostFeasible : Iterate R n

namespace Tracker

/-- The better of two feasible iterates. -/
def lowerObjective (best : Option (Iterate R n)) (it : Iterate R n) : Option (Iterate R n) :=
  match best with
  | none => some it
  | some b => if it.value < b.value then some it else some b

/-- Strictly more feasible, or equally feasible with a strictly lower objective. -/
def MoreFeasible (it than : Iterate R n) : Prop :=
  it.tv < than.tv ∨ (Same it.tv than.tv ∧ it.value < than.value)

instance instDecidableMoreFeasible (it than : Iterate R n) : Decidable (MoreFeasible it than) :=
  inferInstanceAs (Decidable (_ ∨ _))

/-- Compares an iterate with those remembered. -/
def consider (t : Tracker R n) (o : StoppingOptions R) (it : Iterate R n) : Tracker R n where
  bestFeasible :=
    if it.isFeasible o.ineqTol o.eqTol then lowerObjective t.bestFeasible it else t.bestFeasible
  mostFeasible := if MoreFeasible it t.mostFeasible then it else t.mostFeasible

/-- The tracker of the first iterate. -/
def start (o : StoppingOptions R) (first : Iterate R n) : Tracker R n :=
  ({ bestFeasible := none, mostFeasible := first } : Tracker R n).consider o first

end Tracker

end ExactPenalty
