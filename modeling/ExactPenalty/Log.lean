import ExactPenalty.Message

/-!
# The log

What a run reports while it runs.  A line is a consequence of an event (`Event.lines`), so nothing
in the method itself decides what is reported; `Session.log` reads the whole log off a transcript.

Penalty and objective are written with seven significant digits, everything else with four.
-/

set_option autoImplicit false

namespace ExactPenalty

variable {n : Nat}

/-! ## Lines -/

/-- How important a line is. -/
inductive Severity where
  | warn
  | info
  | debug
  deriving DecidableEq, Repr

namespace Severity

/-- The importance as a number, the most important first. -/
def rank : Severity → Nat
  | warn => 0
  | info => 1
  | debug => 2

/-- The name in front of a line. -/
def label : Severity → String
  | warn => "WARN"
  | info => "INFO"
  | debug => "DEBUG"

end Severity

/-- A line of the log. -/
structure LogLine where
  severity : Severity
  text : String

/-- The line with its importance in front. -/
def LogLine.render (l : LogLine) : String := l.severity.label ++ " " ++ l.text

/-- The lines at least as important as `least`, rendered. -/
def renderLog (least : Severity) (lines : List LogLine) : List String :=
  (lines.filter fun l ↦ decide (l.severity.rank ≤ least.rank)).map LogLine.render

/-- A line of interest only when something is looked into. -/
def debugLine (text : String) : LogLine := ⟨.debug, text⟩

/-- A line about something that went wrong. -/
def warnLine (text : String) : LogLine := ⟨.warn, text⟩

/-- A number with seven significant digits. -/
def detailed (x : Float) : String := scientific 6 x

/-- A natural number, filled up with blanks on the left to four places. -/
def padded (k : Nat) : String :=
  let digits := toString k
  String.ofList (List.replicate (4 - digits.length) ' ') ++ digits

/-! ## Parts of the method -/

/-- A steered direction that missed its target after `maxShrinks` shrinks is reported. -/
def SteeringOutcome.lines (maxShrinks : Nat) (s : SteeringOutcome Float n) : List LogLine :=
  if s.adequate then [] else
    [warnLine ("[Steering] predicted reduction " ++ brief s.predicted ++ " below target "
      ++ brief s.target ++ " after " ++ toString maxShrinks
      ++ " shrinks; keeping best direction (mu = " ++ brief s.mu ++ ")")]

/-- The lines of an attempt on a rung: about its steering, and about a direction that does not
descend. -/
def DirectionAttempt.lines (maxShrinks : Nat) (a : DirectionAttempt Float n) : List LogLine :=
  (match a.steered with
    | some s => s.lines maxShrinks
    | none => []) ++
  match a.result with
  | .error (.nonDescent d) =>
    [debugLine ("[Fallback] level " ++ a.level.text ++ " produced a non-descent direction (gᵀd = "
      ++ brief d.slope ++ ")")]
  | _ => []

/-- The further lines of an attempt within a climb: about a program without an answer, and about a
direction that is zero or not finite. -/
def DirectionAttempt.climbLines (a : DirectionAttempt Float n) : List LogLine :=
  match a.result with
  | .error (.qp e) =>
    [warnLine ("[Fallback] level " ++ a.level.text ++ " QP failure: " ++ e.message)]
  | .error .degenerate =>
    [debugLine ("[Fallback] level " ++ a.level.text ++ " produced a degenerate direction")]
  | _ => []

/-- The lines of a bracketing search. -/
def weakWolfeLines (task : SearchTask Float n) : SearchResult Float n → List LogLine
  | .ok outcome =>
    [debugLine ("[Wolfe] accepted t = " ++ brief outcome.trial.step ++ " after "
      ++ toString outcome.evaluations ++ " evaluations (φ: " ++ detailed task.startPenalty
      ++ " -> " ++ detailed outcome.trial.iterate.penalty ++ ")")]
  | .error e =>
    match e.reason with
    | .nonDescent =>
      [debugLine ("[Wolfe] no acceptable step along a non-descent direction (gᵀd = "
        ++ brief task.slope ++ ")")]
    | .notBracketed step =>
      [warnLine ("[Wolfe] failed to bracket a step after " ++ toString e.evaluations
        ++ " evaluations (t = " ++ brief step ++ ")")]
    | .wolfeNotSatisfied lower upper =>
      [warnLine ("[Wolfe] bracket [" ++ brief lower ++ ", " ++ brief upper
        ++ "] did not yield a weak Wolfe step after " ++ toString e.evaluations ++ " evaluations")]
    | .armijoNotSatisfied | .budgetExhausted => []

/-- The lines of a backtracking search. -/
def backtrackingLines : SearchResult Float n → List LogLine
  | .ok outcome =>
    [debugLine ("[Backtracking] accepted t = " ++ brief outcome.trial.step ++ " after "
      ++ toString outcome.evaluations ++ " evaluations")]
  | .error e =>
    match e.reason with
    | .armijoNotSatisfied =>
      [warnLine ("[Backtracking] no sufficient decrease after " ++ toString e.evaluations
        ++ " evaluations")]
    | _ => []

/-- The lines of the search that the options ask for. -/
def searchLines (o : SearchOptions Float) (task : SearchTask Float n)
    (result : SearchResult Float n) : List LogLine :=
  if o.backtracking then backtrackingLines result else weakWolfeLines task result

/-- The lines of a transition on the ladder. -/
def Ladder.lines (l : Ladder) : Transition → List LogLine
  | .escalated level =>
    [warnLine ("[Fallback] escalating from level " ++ l.level.text ++ " to " ++ level.text)]
  | .retry attempt =>
    [debugLine ("[Fallback] random direction attempt " ++ toString attempt ++ "/"
      ++ toString l.maxRandomAttempts)]
  | .exhausted =>
    if l.exhausted then [] else
      [warnLine ("[Fallback] all permitted levels failed at level " ++ l.level.text)]

/-- The line of a stationarity measure whose program had no answer. -/
def Stationarity.lines {R : Type} (s : Stationarity R) : List LogLine :=
  match s.failure with
  | some e =>
    [warnLine ("[BFGS-SQP] stationarity QP failed (" ++ e.message
      ++ "); using the current gradient only")]
  | none => []

/-- The line of a matrix whose large eigenvalues could not be lowered. -/
def conditioningLines (raisedInstead : Bool) : List LogLine :=
  if raisedInstead then
    [debugLine "[BFGS] zero eigenvalue in H; raising smallest eigenvalues instead"]
  else []

namespace SecantUpdate

/-- The name of the outcome. -/
def name {R : Type} : SecantUpdate R → String
  | applied => "Applied"
  | damped => "Damped"
  | skippedCurvature _ => "SkippedCurvature"
  | skippedNonFinite => "SkippedNonFinite"

/-- The line of a secant pair without positive curvature. -/
def lines : SecantUpdate Float → List LogLine
  | skippedCurvature sty => [debugLine ("[BFGS] update skipped: sᵀy = " ++ brief sty ++ " <= 0")]
  | _ => []

/-- The further line of a refused secant pair within a run. -/
def runLines (iteration : Nat) (u : SecantUpdate Float) : List LogLine :=
  if u.wasApplied then [] else
    [debugLine ("[BFGS-SQP] iter " ++ padded iteration ++ ": BFGS update skipped (" ++ u.name
      ++ ")")]

end SecantUpdate

/-! ## Runs -/

/-- The line of a recorded iterate. -/
def IterationRecord.line (r : IterationRecord Float n) : LogLine :=
  debugLine ("[BFGS-SQP] iter " ++ padded r.iteration ++ ": f = " ++ detailed r.iterate.value
    ++ ", tv = " ++ brief r.iterate.tv ++ ", mu = " ++ brief r.iterate.mu ++ ", stationarity = "
    ++ brief r.stationarity.value)

/-- The line of the end of a run. -/
def endLine (reason : Termination) (evaluations : Nat) (last : IterationRecord Float n)
    (it : Iterate Float n) : LogLine :=
  let text := reason.text ++ " after " ++ toString last.iteration ++ " iterations ("
    ++ toString evaluations ++ " evaluations): f = " ++ detailed it.value ++ ", tv = "
    ++ brief it.tv
  if reason.isSuccess then ⟨.info, "[BFGS-SQP] " ++ text⟩
  else warnLine ("[BFGS-SQP] stopped: " ++ text ++ ", stationarity = "
    ++ brief last.stationarity.value)

/-- The lines of an event. -/
def Event.lines (o : Options Float) : Event Float n → List LogLine
  | started shape μ =>
    [⟨.info, "[BFGS-SQP] starting: n = " ++ toString n ++ ", " ++ toString shape.1
      ++ " inequalities, " ++ toString shape.2 ++ " equalities, mu0 = " ++ brief μ⟩]
  | evaluated _ _ => []
  | misshapen => [warnLine "[BFGS-SQP] evaluation with inconsistent dimensions rejected"]
  | conditioned raisedInstead => conditioningLines raisedInstead
  | recorded record => record.stationarity.lines ++ [record.line]
  | attempted attempt => attempt.lines o.steering.maxShrinks ++ attempt.climbLines
  | lowered before after =>
    [debugLine ("[Steering] mu lowered from " ++ brief before ++ " to " ++ brief after)]
  | searched task result => searchLines o.search task result
  | reattempted level count limit μ =>
    [debugLine ("[Wolfe] bracketing failed at level " ++ level.text ++ "; reattempt "
      ++ toString count ++ "/" ++ toString limit ++ " with mu = " ++ brief μ)]
  | failed ladder next => ladder.lines next
  | nothingToForce => [warnLine "[BFGS-SQP] no direction to force a step along"]
  | forced step level =>
    [warnLine ("[BFGS-SQP] forcing a step of t = " ++ brief step ++ " along the level "
      ++ level.text ++ " direction")]
  | updated iteration update => update.lines ++ update.runLines iteration
  | ended reason evaluations last it => [endLine reason evaluations last it]

/-- The log of a run. -/
def Session.log {σ : Type} (s : Session σ Float n) (o : Options Float) : List LogLine :=
  s.transcript.toList.flatMap (Event.lines o)

end ExactPenalty
