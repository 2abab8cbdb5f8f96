import ExactPenalty.Evaluation
import ExactPenalty.Extended

/-!
# Iterates and the exact penalty function

The constrained problem is replaced by the penalty function

  `φ(x; μ) = μ f(x) + Σ max(cᵢ(x), 0) + Σ |cₑ(x)|`,

whose minimisers are those of the problem once `μ` is small enough.  Only the objective carries the
weight `μ`, so an observation can be weighed anew without asking the problem again: an `Iterate` is
an observation together with the weight in force, and value and gradient of the penalty function
are read off it.

* `violationL1`, `violationLinf` — the total violation of lists of constraint values.
* `Observation.penaltyAt`, `Observation.penaltyGradAt` — the penalty function at any weight.
* `Observation.linearizedViolation` — the violation of the constraints linearised at the point.
-/

set_option autoImplicit false

namespace ExactPenalty

open Scalar Linear

variable {R : Type} [Scalar R] {n : Nat}

/-! ## Total violation -/

/-- The violations added up. -/
def violationL1 (ineq eq : List R) : R :=
  (ineq.map fun c ↦ larger c 0).foldl (· + ·) 0 + (eq.map Scalar.abs).foldl (· + ·) 0

/-- The largest violation of an inequality. -/
def ineqViolation (ineq : List R) : R := ineq.foldl (fun acc c ↦ larger acc c) 0

/-- The largest violation of an equality, or the start value if that is larger. -/
def eqViolationFrom (start : R) (eq : List R) : R := eq.foldl (fun acc c ↦ larger acc (Scalar.abs c)) start

/-- The largest violation of all. -/
def violationLinf (ineq eq : List R) : R := eqViolationFrom (ineqViolation ineq) eq

/-! ## The penalty function -/

namespace Observation

/-- The sum of all violations. -/
def tvL1 (o : Observation R n) : R := violationL1 (o.ineq.map (·.value)) (o.eq.map (·.value))

/-- The largest violation of an inequality. -/
def tvIneq (o : Observation R n) : R := ineqViolation (o.ineq.map (·.value))

/-- The largest violation of an equality. -/
def tvEq (o : Observation R n) : R := eqViolationFrom 0 (o.eq.map (·.value))

/-- The largest violation of all. -/
def tv (o : Observation R n) : R := larger o.tvIneq o.tvEq

/-- The violation in the chosen model: the sum, or the largest. -/
def violation (o : Observation R n) (l1 : Bool) : R := if l1 then o.tvL1 else o.tv

/-- The violation of the linearised constraints after a displacement. -/
def linearizedViolation (o : Observation R n) (d : Vector R n) (l1 : Bool) : R :=
  let ineq := o.ineq.map (·.linearized d)
  let eq := o.eq.map (·.linearized d)
  if l1 then violationL1 ineq eq else violationLinf ineq eq

/-- No violation exceeds its tolerance. -/
def isFeasible (o : Observation R n) (ineqTol eqTol : Extended R) : Bool :=
  decide (ineqTol.AtLeast o.tvIneq ∧ eqTol.AtLeast o.tvEq)

/-- A subgradient of the sum of violations: every violated constraint contributes its gradient,
with the sign that reduces the violation, and a constraint at zero contributes nothing. -/
def violationGrad (o : Observation R n) : Vector R n :=
  let ineq := o.ineq.foldl (fun acc c ↦ if 0 < c.value then acc + c.grad else acc)
    (Vector.replicate n 0)
  o.eq.foldl (fun acc c ↦
    if 0 < c.value then acc + c.grad else if c.value < 0 then acc - c.grad else acc) ineq

/-- The penalty function at the weight `μ`. -/
def penaltyAt (o : Observation R n) (μ : R) : R := μ * o.value + o.tvL1

/-- The gradient of the penalty function at the weight `μ`. -/
def penaltyGradAt (o : Observation R n) (μ : R) : Vector R n := scale o.grad μ + o.violationGrad

end Observation

/-! ## Iterates -/

/-- An observation and the penalty parameter it is weighed with. -/
structure Iterate (R : Type) (n : Nat) extends Observation R n where
  mu : R

/-- The observation weighed with `μ`. -/
def Observation.weighed (o : Observation R n) (μ : R) : Iterate R n := { o with mu := μ }

namespace Iterate

/-- The penalty function at the weight in force. -/
def penalty (it : Iterate R n) : R := it.penaltyAt it.mu

/-- The gradient of the penalty function at the weight in force. -/
def penaltyGrad (it : Iterate R n) : Vector R n := it.penaltyGradAt it.mu

/-- The same observation at another weight. -/
def reweighed (it : Iterate R n) (μ : R) : Iterate R n := it.toObservation.weighed μ

/-- Value and gradient of the penalty function are finite. -/
def isUsable (it : Iterate R n) : Bool := Scalar.isFinite it.penalty && allFinite it.penaltyGrad

end Iterate

end ExactPenalty
