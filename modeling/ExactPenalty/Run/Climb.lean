import ExactPenalty.Run.Session

/-!
# One iteration: climbing the ladder

At an iterate the rungs of the ladder are tried one after the other until a line search accepts a
step.  A rung whose search could not bracket a step is tried again with a smaller penalty parameter
where there are constraints, because the penalty function may then be bounded below along its
directions.

* `IterationContext.tryLevel` — one rung with its reattempts.
* `IterationContext.climbFrom` — the rungs from a position of the ladder on.  It ends because every
  failure brings the ladder closer to its end.
* `IterationContext.force` — a step taken although everything failed: the best trial of the last
  search, or the first step along the last direction if that was not searched.

The last direction and the last trial are kept together: a direction that was not searched clears
the trial, and an attempt without a direction leaves both alone.
-/

set_option autoImplicit false

namespace ExactPenalty

open Scalar Session

/-- What does not change in an iteration. -/
structure IterationContext (σ R : Type) (n : Nat) extends RunContext σ R n, DirectionContext R n where
  /-- The reattempts allowed on each rung. -/
  reattempts : ReattemptOptions R

/-- How far a climb has come. -/
structure Climb (R : Type) (n : Nat) where
  /-- The penalty parameter in force. -/
  mu : R
  /-- The last direction that was made, descending or not. -/
  lastDirection : Option (Direction R n)
  /-- The best trial of the search along it. -/
  lastTrial : Option (Trial R n)
  /-- Evaluations of the searches so far. -/
  evaluations : Nat
  /-- Reattempts so far. -/
  reattempts : Nat

/-- The step that an iteration takes. -/
structure Move (R : Type) (n : Nat) where
  target : Observation R n
  direction : Direction R n
  step : R
  evaluations : Nat
  reattempts : Nat
  forced : Bool

/-- How a rung, or a climb, ends. -/
inductive ClimbEnd (R : Type) (n : Nat) where
  | moved (move : Move R n)
  | failed (failure : ClimbFailure)
  | stopped (reason : Termination)

variable {σ R : Type} [Scalar R] {n : Nat}

/-- The climb at an iterate with the penalty parameter `μ`, before anything was tried. -/
def Climb.start (μ : R) : Climb R n where
  mu := μ
  lastDirection := none
  lastTrial := none
  evaluations := 0
  reattempts := 0

/-- Records a failed search along a direction. -/
def Climb.searched (c : Climb R n) (d : Direction R n) (e : SearchError R n) : Climb R n :=
  { c with
    lastDirection := some d
    lastTrial := e.kept
    evaluations := c.evaluations + e.evaluations }

namespace IterationContext

/-- The direction of a rung at the penalty parameter in force. -/
def makeDirection (it : IterationContext σ R n) (level : Level) (μ : R) :
    SessionM σ R n (Except (DirectionError R n) (Direction R n)) := do
  let (attempt, generator) ← outside <|
    it.toDirectionContext.attempt it.env.solve it.options level μ (← get).generator
  modify fun s ↦ { s with generator }
  note (.attempted attempt)
  return attempt.result

/-- Searches along a direction, which may lower the penalty parameter first. -/
def searchAlong (it : IterationContext σ R n) (c : Climb R n) (d : Direction R n) :
    SessionM σ R n (SearchResult R n × Climb R n) := do
  let lowers := decide (d.mu < c.mu)
  if lowers then note (.lowered c.mu d.mu)
  let c := if lowers then { c with mu := d.mu } else c
  let task : SearchTask R n :=
    { start := it.observation, direction := d.vector, slope := d.slope, mu := c.mu }
  let result ← lineSearch it.lookUp task it.options.search
  note (.searched task result)
  return (result, c)

/-- Tries a rung, and tries it again with a smaller penalty parameter up to `left` times. -/
def tryLevel (it : IterationContext σ R n) (level : Level) :
    (left : Nat) → Climb R n → SessionM σ R n (ClimbEnd R n × Climb R n)
  | left, c => do
    match ← it.makeDirection level c.mu with
    | .error (.qp _) => return (.failed .qp, c)
    | .error (.nonDescent d) =>
      return (.failed .noDescent, { c with lastDirection := some d, lastTrial := none })
    | .error .degenerate => return (.failed .noDescent, c)
    | .ok d =>
      match ← it.searchAlong c d with
      | (.ok outcome, c) =>
        return (.moved
          { target := outcome.trial.iterate.toObservation
            direction := d
            step := outcome.trial.step
            evaluations := c.evaluations + outcome.evaluations
            reattempts := c.reattempts
            forced := false }, c)
      | (.error e, c) =>
        let c := c.searched d e
        match e.reason with
        | .budgetExhausted => return (.stopped (it.stopReason (← get)), c)
        | .nonDescent => return (.failed .noDescent, c)
        | .wolfeNotSatisfied _ _ | .armijoNotSatisfied => return (.failed .unacceptable, c)
        | .notBracketed _ =>
          if it.observation.isConstrained then
            match left with
            | 0 => return (.failed .unbounded, c)
            | left + 1 =>
              let μ := c.mu * it.reattempts.factor
              let limit := it.reattempts.limit
              note (.reattempted level (limit - left) limit μ)
              tryLevel it level left { c with mu := μ, reattempts := c.reattempts + 1 }
          else return (.failed .unbounded, c)

/-- Tries the rungs from a position of the ladder on. -/
def climbFrom (it : IterationContext σ R n) (ladder : Ladder) (c : Climb R n) :
    SessionM σ R n (ClimbEnd R n × Climb R n) := do
  match ← it.tryLevel ladder.level it.reattempts.limit c with
  | (.failed failure, c) =>
    note (.failed ladder ladder.next)
    if _h : ladder.next = .exhausted then return (.failed failure, c)
    else climbFrom it ladder.climb.2 c
  | ended => return ended
termination_by ladder.remaining
decreasing_by exact ladder.remaining_climb_lt _h

/-- The step that is forced along a direction. -/
def forcedMove (c : Climb R n) (d : Direction R n) (step : R) (target : Observation R n)
    (evaluations : Nat) : Move R n where
  target
  direction := d
  step
  evaluations
  reattempts := c.reattempts
  forced := true

/-- Takes a step after a failed climb that would end the run for the given reason. -/
def force (it : IterationContext σ R n) (c : Climb R n) (reason : Termination) :
    SessionM σ R n (Except Termination (Move R n)) := do
  match c.lastDirection with
  | none =>
    note .nothingToForce
    return .error reason
  | some d =>
    match c.lastTrial with
    | some trial =>
      note (.forced trial.step d.level)
      return .ok (forcedMove c d trial.step trial.iterate.toObservation c.evaluations)
    | none =>
      let step := it.options.search.initialStep
      match ← it.lookUp (Linear.along it.observation.point d.vector step) with
      | .evaluated o =>
        note (.forced step d.level)
        return .ok (forcedMove c d step o (c.evaluations + 1))
      | .rejected => return .error reason
      | .stopped => return .error (it.stopReason (← get))

/-- The step of an iteration, or why the run ends, with the penalty parameter in force after it. -/
def run (it : IterationContext σ R n) (μ : R) :
    SessionM σ R n (Except Termination (Move R n) × R) := do
  let (ended, c) ← it.climbFrom (.start it.options.ladder it.engaged) (.start μ)
  match ended with
  | .moved move => return (.ok move, c.mu)
  | .stopped reason => return (.error reason, c.mu)
  | .failed failure =>
    let stopping := it.options.stopping
    let reason := failure.termination (it.observation.isFeasible stopping.ineqTol stopping.eqTol)
    if it.options.forceMovement then return (← it.force c reason, c.mu)
    else return (.error reason, c.mu)

end IterationContext

end ExactPenalty
