/-!
# Why a run ends

Eleven reasons with stable numeric codes.  Three of them certify the final point, five say that the
whole ladder of directions failed in the last iteration, and the others are limits.

A climb that fails reports one cause, that of the failure that came last (`ClimbFailure`).
-/

set_option autoImplicit false

namespace ExactPenalty

/-- Why a run ended. -/
inductive Termination where
  /-- Stationary and feasible. -/
  | converged
  /-- The penalty decreased by too little, relative to its size, at a feasible point. -/
  | relativeTolerance
  /-- Feasible with an objective that is good enough. -/
  | targetReached
  | maxIterations
  | timeLimit
  | lineSearchFailedFeasible
  | lineSearchFailedInfeasible
  /-- No step could be bracketed, even with smaller penalty parameters. -/
  | lineSearchUnbounded
  | noDescentDirection
  | evaluationLimit
  | qpFailure
  deriving DecidableEq, Repr

namespace Termination

/-- The numeric code. -/
def code : Termination → Nat
  | converged => 0
  | relativeTolerance => 1
  | targetReached => 2
  | maxIterations => 4
  | timeLimit => 5
  | lineSearchFailedFeasible => 6
  | lineSearchFailedInfeasible => 7
  | lineSearchUnbounded => 8
  | noDescentDirection => 9
  | evaluationLimit => 10
  | qpFailure => 12

/-- The reason in words. -/
def reason : Termination → String
  | converged => "converged to a stationary feasible point"
  | relativeTolerance => "relative decrease below tolerance"
  | targetReached => "objective target reached"
  | maxIterations => "iteration limit reached"
  | timeLimit => "time limit reached"
  | lineSearchFailedFeasible => "line search failed at a feasible point"
  | lineSearchFailedInfeasible => "line search failed at an infeasible point"
  | lineSearchUnbounded => "line search could not bracket a step"
  | noDescentDirection => "no descent direction found"
  | evaluationLimit => "function evaluation limit reached"
  | qpFailure => "QP solver failed"

/-- The reason with its code. -/
def text (t : Termination) : String := t.reason ++ " (code " ++ toString t.code ++ ")"

/-- The final point passed a stopping test. -/
def isSuccess : Termination → Bool
  | converged | relativeTolerance | targetReached => true
  | _ => false

/-- Every permitted rung failed in the last iteration. -/
def isTotalFailure : Termination → Bool
  | lineSearchFailedFeasible | lineSearchFailedInfeasible | lineSearchUnbounded
  | noDescentDirection | qpFailure => true
  | _ => false

end Termination

/-- The cause of the last failure of a climb. -/
inductive ClimbFailure where
  /-- A quadratic program had no answer. -/
  | qp
  /-- No direction, or none that descends. -/
  | noDescent
  /-- No step was too long. -/
  | unbounded
  /-- No step was acceptable. -/
  | unacceptable
  deriving DecidableEq, Repr

/-- How a run ends after a failed climb. -/
def ClimbFailure.termination (failure : ClimbFailure) (feasible : Bool) : Termination :=
  match failure with
  | qp => .qpFailure
  | noDescent => .noDescentDirection
  | unbounded => .lineSearchUnbounded
  | unacceptable => if feasible then .lineSearchFailedFeasible else .lineSearchFailedInfeasible

end ExactPenalty
