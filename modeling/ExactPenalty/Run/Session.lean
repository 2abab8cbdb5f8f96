import ExactPenalty.Conditioning
import ExactPenalty.Direction
import ExactPenalty.Run.History
import ExactPenalty.Run.Termination
import ExactPenalty.Search

/-!
# The state of a run

* `Environment` — what a run asks of the world: evaluations of the problem, answers to quadratic
  programs, eigenvalues, the time, and random numbers.  The first two may change a state of the world.
* `Event` — what can happen in a run.  A run notes all its events, so its transcript tells every
  evaluation, direction and search, whether or not they led anywhere.
* `Session` — the world, the evaluations used, the random numbers, and the transcript so far.
* `RunContext.lookUp` — an evaluation within the budget.  An answer of another shape than that of the
  starting point, or with a number that is not finite, is rejected, so it never reaches an iterate.
-/

set_option autoImplicit false

namespace ExactPenalty

open Scalar

/-- What a run asks of the world. -/
structure Environment (σ R : Type) (n : Nat) where
  evaluate : Vector R n → StateM σ (Evaluation R)
  solve : QpService σ R
  eigen : EigenMethod R
  /-- The whole seconds since the run started. -/
  elapsed : σ → Nat
  /-- The random numbers that belong to a seed. -/
  generator : UInt64 → Generator := .ofSeed

/-- What can happen in a run. -/
inductive Event (R : Type) (n : Nat) where
  /-- The run starts with so many inequalities and equalities and with this penalty parameter. -/
  | started (shape : Nat × Nat) (mu : R)
  /-- The problem was evaluated. -/
  | evaluated (point : Vector R n) (answer : Evaluation R)
  /-- The answer of the last evaluation did not have the right shape. -/
  | misshapen
  /-- The condition number of the curvature matrix was capped. -/
  | conditioned (raisedInstead : Bool)
  /-- An iterate entered the history. -/
  | recorded (record : IterationRecord R n)
  /-- A rung was tried. -/
  | attempted (attempt : DirectionAttempt R n)
  /-- Steering lowered the penalty parameter. -/
  | lowered (before after : R)
  /-- A line search ended. -/
  | searched (task : SearchTask R n) (result : SearchResult R n)
  /-- The penalty parameter is lowered to try a rung again: which time of how many. -/
  | reattempted (level : Level) (count limit : Nat) (mu : R)
  /-- A rung failed for good. -/
  | failed (ladder : Ladder) (next : Transition)
  /-- Nothing to force a step along. -/
  | nothingToForce
  | forced (step : R) (level : Level)
  /-- A secant pair was offered to the curvature matrix. -/
  | updated (iteration : Nat) (update : SecantUpdate R)
  | ended (reason : Termination) (evaluations : Nat) (last : IterationRecord R n)
      (iterate : Iterate R n)

/-- The state of a run. -/
structure Session (σ R : Type) (n : Nat) where
  /-- The state of the world. -/
  world : σ
  /-- The evaluations of the problem so far. -/
  evaluations : Nat
  generator : Generator
  transcript : Array (Event R n)

/-- What does not change in a run. -/
structure RunContext (σ R : Type) (n : Nat) where
  env : Environment σ R n
  options : Options R
  /-- The numbers of inequalities and equalities. -/
  shape : Nat × Nat

/-- An action of a run. -/
abbrev SessionM (σ R : Type) (n : Nat) (α : Type) : Type := StateM (Session σ R n) α

variable {σ R : Type} [Scalar R] {n : Nat}

namespace Session

/-- The state before the first evaluation. -/
def start (generator : Generator) (world : σ) : Session σ R n where
  world
  evaluations := 0
  generator
  transcript := #[]

/-- Notes an event. -/
def note (e : Event R n) : SessionM σ R n Unit :=
  modify fun s ↦ { s with transcript := s.transcript.push e }

/-- An action on the world alone. -/
def outside {α : Type} (act : StateM σ α) : SessionM σ R n α := fun s ↦
  let (a, world) := act.run s.world
  (a, { s with world })

/-- Evaluates the problem, whatever the budget. -/
def evaluate (env : Environment σ R n) (x : Vector R n) : SessionM σ R n (Evaluation R) := do
  let answer ← outside (env.evaluate x)
  modify fun s ↦ { s with evaluations := s.evaluations + 1 }
  note (.evaluated x answer)
  return answer

end Session

open Session

namespace RunContext

/-- The limit that is reached, time before evaluations. -/
def exhausted? (run : RunContext σ R n) (s : Session σ R n) : Option Termination :=
  if ¬ BelowCap (run.env.elapsed s.world) run.options.budget.seconds then some .timeLimit
  else if ¬ BelowCap s.evaluations run.options.budget.evaluations then some .evaluationLimit
  else none

/-- How a run ends that meets its budget. -/
def stopReason (run : RunContext σ R n) (s : Session σ R n) : Termination :=
  (run.exhausted? s).getD .evaluationLimit

/-- An answer at a point as an observation, if its sizes agree with the point and with the shape of
the problem. -/
def shaped? (run : RunContext σ R n) (x : Vector R n) (answer : Evaluation R) :
    Option (Observation R n) :=
  (answer.toObservation? x).filter fun o ↦ decide (o.shape = run.shape)

/-- Evaluates the problem within the budget and screens the answer. -/
def lookUp (run : RunContext σ R n) : Oracle (Session σ R n) R n := fun x ↦ do
  if (run.exhausted? (← get)).isSome then return .stopped
  let answer ← evaluate run.env x
  match run.shaped? x answer with
  | some o => return if o.isFinite then .evaluated o else .rejected
  | none =>
    note .misshapen
    return .rejected

end RunContext

end ExactPenalty
