import ExactPenalty.Linear.Vec

/-!
# What a problem answers

A problem asks for the least value of an objective under inequalities `c ≤ 0` and equalities
`c = 0`.  Asked at a point, it answers with the objective, the constraint values and all their
gradients.

* `Evaluation` — the answer as it comes from outside: plain arrays whose sizes may disagree.
* `Observation` — a point together with an answer of the right shape, every gradient a vector of the
  dimension of the point and every constraint value paired with its own gradient.
* `Evaluation.toObservation?` — the screen between the two.

Everything after the screen works with observations, so operands of disagreeing dimensions cannot
be written down.
-/

set_option autoImplicit false

namespace ExactPenalty

open Scalar Linear

/-! ## Raw answers -/

/-- Gradients of several functions, one column for each, all of length `rows`. -/
structure Jacobian (R : Type) where
  rows : Nat
  columns : List (Vector R rows)

/-- The answer of a problem at a point, of any shape. -/
structure Evaluation (R : Type) where
  value : R
  grad : Array R
  ineq : List R
  ineqGrad : Jacobian R
  eq : List R
  eqGrad : Jacobian R

/-! ## Observations -/

/-- The value of a constraint and its gradient. -/
structure Constraint (R : Type) (n : Nat) where
  value : R
  grad : Vector R n

/-- A point and what the problem answered there. -/
structure Observation (R : Type) (n : Nat) where
  point : Vector R n
  value : R
  grad : Vector R n
  ineq : List (Constraint R n)
  eq : List (Constraint R n)

variable {R : Type} [Scalar R] {n : Nat}

/-- The linear model of the constraint, at a displacement from the point where it was taken. -/
def Constraint.linearized (c : Constraint R n) (d : Vector R n) : R := c.value + plainDot c.grad d

/-- Value and gradient are finite. -/
def Constraint.isFinite (c : Constraint R n) : Bool := Scalar.isFinite c.value && allFinite c.grad

namespace Observation

/-- All numbers of the answer are finite. -/
def isFinite (o : Observation R n) : Bool :=
  Scalar.isFinite o.value && allFinite o.grad && o.ineq.all (·.isFinite) && o.eq.all (·.isFinite)

/-- The constraints, inequalities first. -/
def constraints (o : Observation R n) : List (Constraint R n) := o.ineq ++ o.eq

/-- The number of inequalities and of equalities. -/
def shape (o : Observation R n) : Nat × Nat := (o.ineq.length, o.eq.length)

/-- There is at least one constraint. -/
def isConstrained (o : Observation R n) : Bool := !o.constraints.isEmpty

end Observation

/-! ## The screen -/

/-- The values paired with their gradients, if there is one gradient of dimension `n` for each. -/
def Jacobian.constraints? (J : Jacobian R) (n : Nat) (values : List R) :
    Option (List (Constraint R n)) :=
  if h : J.rows = n then
    if J.columns.length = values.length then
      some (values.zipWith (fun v g ↦ ⟨v, g.cast h⟩) J.columns)
    else none
  else none

/-- The answer as an observation at `x`, if all its parts have the sizes that the dimension of `x`
and the numbers of constraint values call for. -/
def Evaluation.toObservation? (e : Evaluation R) (x : Vector R n) : Option (Observation R n) :=
  if h : e.grad.size = n then
    match e.ineqGrad.constraints? n e.ineq, e.eqGrad.constraints? n e.eq with
    | some ineq, some eq => some ⟨x, e.value, ⟨e.grad, h⟩, ineq, eq⟩
    | _, _ => none
  else none

end ExactPenalty
