import ExactPenalty.Search.Trial

/-!
# The bracketing search

The search looks for a step that satisfies the weak Wolfe conditions: the penalty decreases
sufficiently, and its slope along the direction has risen.  A step without the first is too long and
becomes the upper end of the bracket; a step with the first but not the second is too short and
becomes the lower end.  While nothing was too long the step is doubled; from then on the bracket is
bisected.  The weak conditions are what keeps the search usable where gradients jump.

* `Verdict`, `SearchTask.verdict` — what a trial says about its step.
* `Bracket` — the state between two look-ups, with `Bracket.after`, the effect of a verdict.
* `weakWolfe` — the search.  Every round doubles or bisects, so it ends (`roundsLeft_after_lt`).
-/

set_option autoImplicit false

namespace ExactPenalty

open Scalar Linear

variable {σ R : Type} [Scalar R] {n : Nat}

/-! ## Verdicts -/

/-- What a trial says about its step. -/
inductive Verdict where
  | tooLong
  | tooShort
  | acceptable
  deriving DecidableEq, Repr

/-- The verdict on a trial.  Whatever cannot be used is too long. -/
def SearchTask.verdict (task : SearchTask R n) (o : SearchOptions R) (t : Trial R n) : Verdict :=
  if t.isUsable then
    if task.decreaseBound o t.step < t.iterate.penalty then .tooLong
    else if dot t.iterate.penaltyGrad task.direction ≤ o.curvature * task.slope then .tooShort
    else .acceptable
  else .tooLong

/-! ## The bracket -/

/-- The state of the search before a look-up. -/
structure Bracket (R : Type) (n : Nat) where
  /-- The largest step known to be too short, or zero. -/
  lower : R
  /-- The smallest step known to be too long, if there is one. -/
  upper : Extended R
  /-- The step to try next. -/
  step : R
  bisections : Nat
  expansions : Nat
  evaluations : Nat
  best : Option (Trial R n)

/-- How long a bracketing search may go on. -/
structure BracketLimits where
  bisections : Nat
  expansions : Nat
  evaluations : Option Nat

namespace Bracket

/-- Nothing is known yet. -/
def start (step : R) : Bracket R n where
  lower := 0
  upper := .posInf
  step
  bisections := 0
  expansions := 0
  evaluations := 0
  best := none

/-- One more evaluation, with the trial it gave if it was not refused. -/
def counted (b : Bracket R n) (trial : Option (Trial R n)) : Bracket R n :=
  { b with
    evaluations := b.evaluations + 1
    best := match trial with
      | some t => Trial.keepLower b.best t
      | none => b.best }

/-- The step becomes an end of the bracket. -/
def narrowed (b : Bracket R n) (tooLong : Bool) : Bracket R n :=
  if tooLong then { b with upper := .finite b.step } else { b with lower := b.step }

/-- The next step: the middle of the bracket, or twice the lower end while there is no upper one. -/
def advanced (b : Bracket R n) : Bracket R n :=
  match b.upper.finite? with
  | some upper => { b with step := 0.5 * (b.lower + upper), bisections := b.bisections + 1 }
  | none => { b with step := (1 + 1) * b.lower, expansions := b.expansions + 1 }

/-- The state after a step that was too long, or else too short. -/
def after (b : Bracket R n) (trial : Option (Trial R n)) (tooLong : Bool) : Bracket R n :=
  ((b.counted trial).narrowed tooLong).advanced

/-- The search may go on. -/
def MayContinue (limits : BracketLimits) (b : Bracket R n) : Prop :=
  BelowCap b.evaluations limits.evaluations ∧ b.bisections ≤ limits.bisections ∧
    b.expansions ≤ limits.expansions

instance instDecidableMayContinue (limits : BracketLimits) (b : Bracket R n) :
    Decidable (b.MayContinue limits) :=
  inferInstanceAs (Decidable (_ ∧ _ ∧ _))

/-- The bisections and expansions that are left. -/
def roundsLeft (limits : BracketLimits) (b : Bracket R n) : Nat :=
  (limits.bisections + 1 - b.bisections) + (limits.expansions + 1 - b.expansions)

/-- Every round uses up a bisection or an expansion. -/
theorem roundsLeft_after_lt {limits : BracketLimits} {b : Bracket R n} (h : b.MayContinue limits)
    (trial : Option (Trial R n)) (tooLong : Bool) :
    (b.after trial tooLong).roundsLeft limits < b.roundsLeft limits := by
  obtain ⟨_, hb, he⟩ := h
  unfold after advanced
  have hbis : ((b.counted trial).narrowed tooLong).bisections = b.bisections := by
    unfold narrowed; split <;> rfl
  have hexp : ((b.counted trial).narrowed tooLong).expansions = b.expansions := by
    unfold narrowed; split <;> rfl
  split <;> simp only [roundsLeft, hbis, hexp] <;> omega

/-- The failure of a search that may not go on. -/
def failure (task : SearchTask R n) (b : Bracket R n) : SearchError R n where
  reason :=
    if 0 ≤ task.slope then .nonDescent
    else match b.upper with
      | .finite upper =>
        if Scalar.isFinite upper || Scalar.isNaN upper then .wolfeNotSatisfied b.lower upper
        else .notBracketed b.step
      | _ => .notBracketed b.step
  evaluations := b.evaluations
  kept := b.best

end Bracket

/-! ## The search -/

/-- The search from a given state on. -/
def searchBracket (ask : Oracle σ R n) (task : SearchTask R n) (o : SearchOptions R)
    (limits : BracketLimits) (b : Bracket R n) : StateM σ (SearchResult R n) :=
  if _h : b.MayContinue limits then do
    match ← ask (task.pointAt b.step) with
    | .stopped =>
      return .error { reason := .budgetExhausted, evaluations := b.evaluations, kept := b.best }
    | .rejected => searchBracket ask task o limits (b.after none true)
    | .evaluated observation =>
      let trial := Trial.ofObservation task b.step observation
      match task.verdict o trial with
      | .acceptable => return .ok { trial, evaluations := b.evaluations + 1 }
      | .tooLong => searchBracket ask task o limits (b.after (some trial) true)
      | .tooShort => searchBracket ask task o limits (b.after (some trial) false)
  else return .error (b.failure task)
termination_by b.roundsLeft limits
decreasing_by all_goals exact Bracket.roundsLeft_after_lt _h _ _

/-- The limits of a bracketing search. -/
def SearchTask.bracketLimits (task : SearchTask R n) (o : SearchOptions R) : BracketLimits where
  bisections := bisectionLimit (norm₂ task.direction)
  expansions := expansionLimit (norm₂ task.direction)
  evaluations := task.evaluationCap o

/-- Searches for a step that satisfies the weak Wolfe conditions. -/
def weakWolfe (ask : Oracle σ R n) (task : SearchTask R n) (o : SearchOptions R) :
    StateM σ (SearchResult R n) :=
  searchBracket ask task o (task.bracketLimits o) (.start o.initialStep)

end ExactPenalty
