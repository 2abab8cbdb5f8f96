import ExactPenalty.Run.Climb

/-!
# The run

Every iteration caps the condition number of the curvature matrix, measures stationarity, records
the iterate and makes the stopping tests; then it climbs the ladder for a step.  The step gives a
secant pair for the curvature matrix and a sample for the bundle of gradients.

* `stoppingTest` — the tests on a recorded iterate: stationary, good enough, hardly decreasing.
* `RunContext.iterateFrom` — the iterations, as many as are left.
* `minimize` — a whole run from a starting point, and `RunError`, why one cannot begin.

The result holds the history with one record for each iterate, so the number of records is one more
than the number of iterations.
-/

set_option autoImplicit false

namespace ExactPenalty

open Scalar Session

variable {σ R : Type} [Scalar R] {n : Nat}

/-! ## Stopping -/

/-- A test that the iterate passes, if any, given the iterate recorded before it. -/
def stoppingTest (o : StoppingOptions R) (previous : Option (Iterate R n)) (it : Iterate R n)
    (stationarity : R) : Option Termination :=
  let hardlyDecreases (before : R) : Bool :=
    let scale := larger (Scalar.abs before) epsilon
    decide (o.relTol.Positive ∧ (o.relTol.scaled scale).AtLeast (Scalar.abs (before - it.penalty)))
  if it.isFeasible o.ineqTol o.eqTol then
    if o.optTol.AtLeast stationarity then some .converged
    else if o.target.AtLeast it.value then some .targetReached
    else if previous.any fun p ↦ hardlyDecreases (p.penaltyAt it.mu) then some .relativeTolerance
    else none
  else none

/-! ## Iterations -/

/-- The state of a run between two iterations. -/
structure Progress (R : Type) (n : Nat) where
  iteration : Nat
  current : Iterate R n
  curvature : Curvature R n
  bundle : GradientBundle R n
  tracker : Tracker R n
  history : Array (IterationRecord R n)
  /-- The step that led to the current iterate. -/
  step : Option (StepRecord R)

/-- What a run yields. -/
structure RunResult (R : Type) (n : Nat) where
  termination : Termination
  /-- The last iterate, with the penalty parameter in force at the end. -/
  final : Iterate R n
  stationarity : Stationarity R
  iterations : Nat
  evaluations : Nat
  history : Array (IterationRecord R n)
  tracker : Tracker R n

namespace Progress

/-- The state at the starting point. -/
def start (o : Options R) (first : Observation R n) : Progress R n :=
  let current := first.weighed o.mu0
  { iteration := 0
    current
    curvature := .initial n o.curvature
    bundle := (GradientBundle.empty (o.bundle.capacity n)).push first
    tracker := .start o.stopping current
    history := #[]
    step := none }

/-- The record of the current iterate. -/
def record (p : Progress R n) (stationarity : Stationarity R) : IterationRecord R n where
  iteration := p.iteration
  iterate := p.current
  stationarity
  step := p.step

/-- The state after a move, where `μ` is the penalty parameter in force. -/
def moved (p : Progress R n) (o : StoppingOptions R) (engaged : Bool) (move : Move R n) (μ : R) :
    SecantUpdate R × Progress R n :=
  let current := p.current.reweighed μ
  let next := move.target.weighed μ
  let (update, curvature) :=
    p.curvature.update (next.point - current.point) (next.penaltyGrad - current.penaltyGrad)
  (update,
    { iteration := p.iteration + 1
      current := next
      curvature
      bundle := p.bundle.push next.toObservation
      tracker := p.tracker.consider o next
      history := p.history
      step := some
        { level := move.direction.level
          engaged
          step := move.step
          forced := move.forced
          evaluations := move.evaluations
          reattempts := move.reattempts
          update
          mu := μ } })

end Progress

namespace RunContext

/-- The result of a run that ends at a recorded iterate, with the penalty parameter `μ`. -/
def finish (p : Progress R n) (last : IterationRecord R n) (μ : R) (termination : Termination) :
    SessionM σ R n (RunResult R n) := do
  let final := p.current.reweighed μ
  let evaluations := (← get).evaluations
  note (.ended termination evaluations last final)
  return {
    termination, final, evaluations
    stationarity := last.stationarity
    iterations := p.iteration
    history := p.history
    tracker := p.tracker }

/-- The parts of an iteration that precede the climb: the conditioned curvature matrix, the record of
the iterate, and the state with that record in its history. -/
def enter (run : RunContext σ R n) (p : Progress R n) :
    SessionM σ R n (Mat R n n × IterationRecord R n × Progress R n) := do
  let conditioned := condition run.env.eigen run.options.conditioning p.curvature.matrix
  note (.conditioned conditioned.raisedInstead)
  let stationarity ← outside <|
    p.bundle.measure run.env.solve p.current conditioned.matrix run.options.bundle.radius
  let record := p.record stationarity
  note (.recorded record)
  return (conditioned.matrix, record, { p with history := p.history.push record })

/-- The context of the climb in an iteration. -/
def iteration (run : RunContext σ R n) (p : Progress R n) (conditioned : Mat R n n) :
    IterationContext σ R n where
  toRunContext := run
  observation := p.current.toObservation
  curvature := p.curvature.matrix
  conditioned
  engaged := isEngaged p.current.toObservation run.options.steering.ineqMargin
  reattempts := if p.iteration = 0 then run.options.firstReattempts else run.options.reattempts

/-- Iterates, at most `left` times, until the run ends. -/
def iterateFrom (run : RunContext σ R n) :
    (left : Nat) → Progress R n → SessionM σ R n (RunResult R n)
  | left, p => do
    let previous := p.history.back?.map (·.iterate)
    let (conditioned, record, p) ← run.enter p
    let finish := finish p record
    match stoppingTest run.options.stopping previous p.current record.stationarity.value with
    | some reason => finish p.current.mu reason
    | none =>
      match left with
      | 0 => finish p.current.mu .maxIterations
      | left + 1 =>
        match run.exhausted? (← get) with
        | some reason => finish p.current.mu reason
        | none =>
          let it := run.iteration p conditioned
          let (ended, μ) ← it.run p.current.mu
          match ended with
          | .error reason => finish μ reason
          | .ok move =>
            let (update, p) := p.moved run.options.stopping it.engaged move μ
            note (.updated record.iteration update)
            iterateFrom run left p

end RunContext

/-! ## Runs -/

/-- Why a run cannot begin. -/
inductive RunError (R : Type) where
  | invalidOptions (cause : OptionsError R)
  | emptyInitialPoint
  | nonFiniteInitialPoint
  /-- The answer at the starting point does not have the sizes that `n` variables call for. -/
  | dimensionMismatch (n : Nat)

/-- A run from a session that has not evaluated anything yet. -/
def runFrom (env : Environment σ R n) (options : Options R) (x₀ : Vector R n) :
    SessionM σ R n (Except (RunError R) (RunResult R n)) := do
  match options.validate with
  | .error e => return .error (.invalidOptions e)
  | .ok options =>
    if n = 0 then return .error .emptyInitialPoint
    let answer ← evaluate env x₀
    match answer.toObservation? x₀ with
    | none => return .error (.dimensionMismatch n)
    | some first =>
      if first.isFinite && Linear.allFinite x₀ then
        note (.started first.shape options.mu0)
        let run : RunContext σ R n := { env, options, shape := first.shape }
        return .ok (← run.iterateFrom options.stopping.maxIterations (.start options first))
      else return .error .nonFiniteInitialPoint

/-- Minimises the problem of an environment from a starting point, and returns what came of it with
the final state of the run. -/
def minimize (env : Environment σ R n) (options : Options R) (x₀ : Vector R n) (world : σ) :
    Except (RunError R) (RunResult R n) × Session σ R n :=
  (runFrom env options x₀).run (.start (env.generator options.seed) world)

end ExactPenalty
