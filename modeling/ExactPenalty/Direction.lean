import ExactPenalty.Ladder
import ExactPenalty.Random
import ExactPenalty.Steering

/-!
# Search directions

Every rung of the ladder makes a direction of its own:

* the two steering rungs, where steering is engaged, solve the steering model with the conditioned
  curvature matrix or with the identity, and may lower the penalty parameter;
* without steering they make the directions of the two rungs after them, `−H ∇φ` and `−∇φ`;
* the last rung draws a random vector and turns it round if it ascends.

A direction is useless if it is zero or not finite, and it is refused if it does not descend unless
the line search is allowed to try such directions.  Descent is measured by the slope `∇φ · d` at the
penalty parameter that the direction was made for.
-/

set_option autoImplicit false

namespace ExactPenalty

open Scalar Linear

variable {σ R : Type} [Scalar R] {n : Nat}

/-- A search direction. -/
structure Direction (R : Type) (n : Nat) where
  vector : Vector R n
  level : Level
  /-- The penalty parameter it was made for. -/
  mu : R
  /-- The violation it removes, as predicted, if it was steered. -/
  predicted : Option R
  /-- The directional derivative of the penalty function. -/
  slope : R
  /-- Steering was engaged. -/
  engaged : Bool

/-- The penalty function falls along the direction. -/
def Direction.isDescent (d : Direction R n) : Bool := decide (d.slope < 0)

/-- Why a rung yields no direction. -/
inductive DirectionError (R : Type) (n : Nat) where
  | qp (cause : QpError)
  /-- The penalty function does not fall along it. -/
  | nonDescent (direction : Direction R n)
  /-- It is zero or not finite. -/
  | degenerate

/-- What one attempt on a rung came to. -/
structure DirectionAttempt (R : Type) (n : Nat) where
  level : Level
  /-- The answer of the steering model, if it was asked and had one. -/
  steered : Option (SteeringOutcome R n)
  result : Except (DirectionError R n) (Direction R n)

/-- A vector proposed as a direction, before it is judged. -/
structure Proposal (R : Type) (n : Nat) where
  vector : Vector R n
  mu : R
  steered : Option (SteeringOutcome R n)

/-- What a direction is made from. -/
structure DirectionContext (R : Type) (n : Nat) where
  observation : Observation R n
  /-- The curvature matrix. -/
  curvature : Mat R n n
  /-- The curvature matrix with its condition number capped. -/
  conditioned : Mat R n n
  /-- Steering is engaged. -/
  engaged : Bool

namespace DirectionContext

/-- The steered direction for a matrix, as a proposal. -/
def steered (ctx : DirectionContext R n) (solve : QpService σ R) (options : SteeringOptions R)
    (h : Mat R n n) (μ : R) : StateM σ (Except QpError (Proposal R n)) := do
  let outcome ← (steer solve options ctx.observation h μ).run
  return outcome.map fun s ↦ { vector := s.direction, mu := s.mu, steered := some s }

/-- The vector that a rung proposes for the penalty parameter `μ`. -/
def propose (ctx : DirectionContext R n) (solve : QpService σ R) (options : SteeringOptions R)
    (level : Level) (μ : R) (g : Generator) :
    StateM σ (Except QpError (Proposal R n) × Generator) := do
  let gradient := ctx.observation.penaltyGradAt μ
  let plain (v : Vector R n) : Except QpError (Proposal R n) :=
    .ok { vector := v, mu := μ, steered := none }
  match level, ctx.engaged with
  | .steering, true => return (← ctx.steered solve options ctx.conditioned μ, g)
  | .steeringIdentity, true => return (← ctx.steered solve options (.identity R n) μ, g)
  | .steering, false | .quasiNewton, _ => return (plain (-(ctx.curvature.mulVec gradient)), g)
  | .steeringIdentity, false | .steepestDescent, _ => return (plain (-gradient), g)
  | .random, _ =>
    let (v, g) := g.components n
    return (plain v, g)

/-- Whether a proposal is a direction: neither zero nor infinite, and descending unless directions
that do not descend are `lenient`ly let through. -/
def judge (ctx : DirectionContext R n) (lenient : Bool) (level : Level) (p : Proposal R n) :
    Except (DirectionError R n) (Direction R n) :=
  if allFinite p.vector = false ∨ p.vector.all (fun v ↦ decide (Same v 0)) = true then
    .error .degenerate
  else
    let slope := dot (ctx.observation.penaltyGradAt p.mu) p.vector
    let turned : Bool := decide (level = .random ∧ 0 < slope)
    let direction : Direction R n :=
      { vector := if turned then p.vector.map (-·) else p.vector
        level
        mu := p.mu
        predicted := p.steered.map (·.predicted)
        slope := if turned then -slope else slope
        engaged := ctx.engaged }
    if direction.isDescent || lenient then .ok direction else .error (.nonDescent direction)

/-- The direction of a rung for the penalty parameter `μ`, and the generator after it. -/
def attempt (ctx : DirectionContext R n) (solve : QpService σ R) (options : Options R)
    (level : Level) (μ : R) (g : Generator) :
    StateM σ (DirectionAttempt R n × Generator) := do
  let (proposal, g) ← ctx.propose solve options.steering level μ g
  let lenient := decide (options.search.nondescentLimit ≠ 0)
  let attempt : DirectionAttempt R n := match proposal with
    | .error e => { level, steered := none, result := .error (.qp e) }
    | .ok p => { level, steered := p.steered, result := ctx.judge lenient level p }
  return (attempt, g)

end DirectionContext

end ExactPenalty
