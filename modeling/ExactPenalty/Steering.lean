import ExactPenalty.Iterate
import ExactPenalty.Options
import ExactPenalty.Quadratic.Program

/-!
# Steering towards feasibility

A direction of descent for the penalty function need not bring an iterate closer to the feasible
set: where the weight of the objective is large, the objective wins.  Steering asks of a direction
that it removes a fixed fraction of the violation that could be removed at all, and lowers the
weight until it does.

* `isEngaged` — whether an iterate needs steering.
* `SteeringModel` — the penalty function with linear constraints and a quadratic term of curvature
  `H⁻¹`.  Its minimiser is `−H (μ ∇f + J y)`, where `y` solves the dual program over a box: a
  multiplier lies in `[0, 1]` for an inequality and in `[−1, 1]` for an equality, the slopes of
  `max(·, 0)` and of the absolute value.  So no inverse of `H` is ever formed.
* `steer` — the first adequate weight among `μ`, `μ c`, `μ c²`, …, or the best one of them.

The violation removed by the direction of weight zero is the reference: that direction cares for
feasibility alone.
-/

set_option autoImplicit false

namespace ExactPenalty

open Scalar Linear

variable {σ R : Type} [Scalar R] {n m : Nat}

/-- Whether steering is used at an iterate.  An equality always calls for it; an inequality does once
it comes within the margin of being violated.  An infinite margin calls for it wherever there are
constraints. -/
def isEngaged (o : Observation R n) (margin : Extended R) : Bool :=
  if o.isConstrained then
    match margin with
    | .finite δ => !o.eq.isEmpty || o.ineq.any fun c ↦ decide (-δ ≤ c.value)
    | _ => true
  else false

/-! ## The model -/

/-- A solver of quadratic programs that may change a state of its own from one call to the next. -/
abbrev QpService (σ R : Type) : Type :=
  {m : Nat} → QuadraticProgram R m → StateM σ (Except QpError (Vector R m))

/-- The parts of the model that do not depend on the weight of the objective. -/
structure SteeringModel (R : Type) (n m : Nat) where
  /-- The constraint values. -/
  values : Vector R m
  /-- `H J`, where the columns of `J` are the constraint gradients. -/
  curvedGrads : Mat R n m
  /-- `Jᵀ H J`, the matrix of the dual program. -/
  dualHessian : Mat R m m
  /-- `H ∇f`. -/
  curvedGrad : Vector R n
  /-- `Jᵀ H ∇f`. -/
  dualGrad : Vector R m
  /-- The box of the multipliers. -/
  multipliers : FeasibleSet R m

/-- The gradients of all constraints, one column each. -/
def Observation.jacobian (o : Observation R n) : Mat R n o.constraints.length :=
  .ofColumns ⟨(o.constraints.map (·.grad)).toArray, by simp⟩

/-- Where the multipliers of `m` constraints lie, the first `ineq` of which are inequalities. -/
def multiplierBox (ineq m : Nat) : FeasibleSet R m :=
  .box (Vector.ofFn fun k ↦ .finite (if k < ineq then 0 else -1)) (Vector.replicate m (.finite 1))

/-- The model at an iterate for the curvature matrix `h`. -/
def Observation.steeringModel (o : Observation R n) (h : Mat R n n) :
    SteeringModel R n o.constraints.length :=
  let curvedGrads := h.mul o.jacobian
  let curvedGrad := h.mulVec o.grad
  let columns := Vector.ofFn fun k ↦ o.jacobian.column k
  { values := ⟨(o.constraints.map (·.value)).toArray, by simp⟩
    curvedGrads
    dualHessian := Mat.symmetrized <| Mat.ofFn fun i j ↦
      plainSum fun l : Fin n ↦ columns i l * curvedGrads l j
    curvedGrad
    dualGrad := columns.map fun g ↦ plainDot g curvedGrad
    multipliers := multiplierBox o.ineq.length _ }

namespace SteeringModel

/-- The dual program for the weight `μ`. -/
def program (model : SteeringModel R n m) (μ : R) : QuadraticProgram R m where
  hessian := model.dualHessian
  linear := scale model.dualGrad μ - model.values
  feasible := model.multipliers

/-- The direction that belongs to the multipliers `y`. -/
def directionOf (model : SteeringModel R n m) (μ : R) (y : Vector R m) : Vector R n :=
  -(scale model.curvedGrad μ + model.curvedGrads.mulVec y)

/-- The minimiser of the model for the weight `μ`. -/
def direction (model : SteeringModel R n m) (solve : QpService σ R) (μ : R) :
    ExceptT QpError (StateM σ) (Vector R n) := do
  let y ← (solve (model.program μ) : ExceptT QpError (StateM σ) _)
  let d := model.directionOf μ y
  if allFinite d then return d else throw .nonFiniteData

end SteeringModel

/-! ## Shrinking the weight -/

/-- A steered direction. -/
structure SteeringOutcome (R : Type) (n : Nat) where
  direction : Vector R n
  /-- The weight the direction was computed for. -/
  mu : R
  /-- The violation it removes, as the linear constraints predict. -/
  predicted : R
  /-- What the direction of weight zero removes. -/
  reference : R
  /-- What had to be removed. -/
  target : R
  /-- How often the weight was shrunk before. -/
  shrinks : Nat
  /-- The target was met. -/
  adequate : Bool

/-- The violation that a displacement removes from the linear constraints. -/
def Observation.predictedReduction (o : Observation R n) (l1 : Bool) (d : Vector R n) : R :=
  o.violation l1 - o.linearizedViolation d l1

namespace SteeringOutcome

/-- The better of two directions, the earlier one if they are equally good. -/
def orBetter (best : Option (SteeringOutcome R n)) (next : SteeringOutcome R n) :
    SteeringOutcome R n :=
  match best with
  | none => next
  | some b => if b.predicted < next.predicted then next else b

/-- The first adequate direction among the `left` that `attempt` makes for `μ`, `μ c`, `μ c²`, …, and the
best of them if none is adequate. -/
def firstAdequate (c : R)
    (attempt : (shrinks : Nat) → (μ : R) → ExceptT QpError (StateM σ) (SteeringOutcome R n)) :
    (left shrinks : Nat) → (μ : R) → (best : Option (SteeringOutcome R n)) →
      ExceptT QpError (StateM σ) (SteeringOutcome R n)
  | 0, _, _, some best => return best
  | 0, _, _, none => throw (.unsolved "no steering direction")
  | left + 1, shrinks, μ, best => do
    let next ← attempt shrinks μ
    if next.adequate then return next
    firstAdequate c attempt left (shrinks + 1) (μ * c) (some (orBetter best next))

end SteeringOutcome

/-- The steered direction at an iterate, for the curvature matrix `h` and a weight of at most `μ`.
A program that has no answer ends the attempt, even when an earlier one had. -/
def steer (solve : QpService σ R) (options : SteeringOptions R) (o : Observation R n)
    (h : Mat R n n) (μ : R) : ExceptT QpError (StateM σ) (SteeringOutcome R n) := do
  let model := o.steeringModel h
  let reference := o.predictedReduction options.l1Model (← model.direction solve 0)
  let target := options.violationFraction * reference
  let attempt (shrinks : Nat) (μ : R) : ExceptT QpError (StateM σ) (SteeringOutcome R n) := do
    let direction ← model.direction solve μ
    let predicted := o.predictedReduction options.l1Model direction
    return { direction, mu := μ, predicted, reference, target, shrinks
             adequate := decide (target ≤ predicted) }
  SteeringOutcome.firstAdequate options.shrinkFactor attempt (options.maxShrinks + 1) 0 μ none

end ExactPenalty
