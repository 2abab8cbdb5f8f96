import ExactPenalty.Problem.Formula

/-!
# Problems given by formulas

* `PosedProblem` — an objective, inequalities and equalities, each a formula.  The gradient of the
  objective may be given by formulas of its own, as for a function whose gradient is known only
  approximately.
* `Disturbance` — a change of one answer: a number that is not finite, or sizes that disagree.  It
  shows how a method copes with a problem that misbehaves now and then.
* `PosedProblem.answer` — the answer to the evaluation with a given number, counted from zero.
-/

set_option autoImplicit false

namespace ExactPenalty

open Scalar Linear

/-! ## Disturbances -/

/-- A change of an answer. -/
inductive Disturbance where
  | nanValue
  | infiniteValue
  | nanGrad
  | nanIneq
  | infiniteIneqGrad
  | infiniteEq
  | nanEqGrad
  /-- The gradient of the objective is one component short. -/
  | shortGrad
  /-- One inequality value more than gradients. -/
  | extraIneq
  /-- One equality value more than gradients. -/
  | extraEq
  /-- Gradients of the inequalities with one component too many. -/
  | tallIneqGrad
  /-- Gradients of the equalities with one component too many. -/
  | tallEqGrad
  /-- No constraints at all. -/
  | unconstrained
  deriving DecidableEq, Repr

variable {R : Type} [Scalar R] {n : Nat}

/-- The first value replaced. -/
def replaceFirst (v : R) : List R → List R
  | [] => []
  | _ :: rest => v :: rest

/-- The first entry of the first column replaced. -/
def Jacobian.replaceCorner (J : Jacobian R) (v : R) : Jacobian R :=
  match J.columns with
  | [] => J
  | g :: rest => { J with columns := Vector.ofFn (fun i ↦ if i.val = 0 then v else g i) :: rest }

/-- Zeros with one row more. -/
def Jacobian.tall (J : Jacobian R) : Jacobian R where
  rows := J.rows + 1
  columns := J.columns.map fun _ ↦ Vector.replicate _ 0

/-- The answer after a disturbance. -/
def Disturbance.apply (d : Disturbance) (e : Evaluation R) : Evaluation R :=
  let nan : R := 0 / 0
  match d with
  | nanValue => { e with value := nan }
  | infiniteValue => { e with value := overZero }
  | nanGrad => { e with grad := e.grad.setIfInBounds 0 nan }
  | nanIneq => { e with ineq := replaceFirst nan e.ineq }
  | infiniteIneqGrad => { e with ineqGrad := e.ineqGrad.replaceCorner overZero }
  | infiniteEq => { e with eq := replaceFirst (-overZero) e.eq }
  | nanEqGrad => { e with eqGrad := e.eqGrad.replaceCorner nan }
  | shortGrad => { e with grad := e.grad.pop }
  | extraIneq => { e with ineq := e.ineq ++ [0] }
  | extraEq => { e with eq := e.eq ++ [0] }
  | tallIneqGrad => { e with ineqGrad := e.ineqGrad.tall }
  | tallEqGrad => { e with eqGrad := e.eqGrad.tall }
  | unconstrained =>
    { e with
      ineq := []
      ineqGrad := ⟨e.ineqGrad.rows, []⟩
      eq := []
      eqGrad := ⟨e.eqGrad.rows, []⟩ }

/-! ## Problems -/

/-- A problem whose functions are formulas. -/
structure PosedProblem (R : Type) where
  objective : Formula R
  /-- The gradient of the objective, if it is not that of the formula. -/
  gradient : List (Formula R)
  ineq : List (Formula R)
  eq : List (Formula R)
  /-- The disturbed evaluations with their changes. -/
  disturbances : List (Nat × Disturbance)

namespace PosedProblem

/-- The undisturbed answer at a point. -/
def evaluate (p : PosedProblem R) (x : Vector R n) : Evaluation R :=
  let f := p.objective.jet x
  let ineq := p.ineq.map fun c ↦ c.jet x
  let eq := p.eq.map fun c ↦ c.jet x
  { value := f.value
    grad := if p.gradient.isEmpty then f.grad.toArray
      else (p.gradient.map fun g ↦ (g.jet x).value).toArray
    ineq := ineq.map (·.value)
    ineqGrad := ⟨n, ineq.map (·.grad)⟩
    eq := eq.map (·.value)
    eqGrad := ⟨n, eq.map (·.grad)⟩ }

/-- The answer at a point to the evaluation with the given number. -/
def answer (p : PosedProblem R) (number : Nat) (x : Vector R n) : Evaluation R :=
  let e := p.evaluate x
  match p.disturbances.find? fun d ↦ d.1 = number with
  | some (_, d) => d.apply e
  | none => e

end PosedProblem

end ExactPenalty
