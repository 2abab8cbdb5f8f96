import ExactPenalty.Iterate
import ExactPenalty.Options

/-!
# Trials along a direction

A line search looks for a step `t` such that the penalty function at `x + t d` is low enough.  It
sees the problem only through look-ups, which may be refused.

* `SearchTask` — the start, the direction, its slope and the penalty parameter of the search.
* `Lookup` — the answer at one point: an observation, a refusal, or the end of the budget.
* `Trial` — an observation weighed for the search, with its step.  A failed search keeps the first
  of its usable trials with the lowest penalty (`Trial.keepLower`).
* `SearchError` — the five ways to fail.

A refused look-up counts as an evaluation; one that meets the end of the budget does not.
-/

set_option autoImplicit false

namespace ExactPenalty

open Scalar Linear

variable {σ R : Type} [Scalar R] {n : Nat}

/-! ## Tasks -/

/-- What is searched: the penalty function for `mu` from `start` along `direction`. -/
structure SearchTask (R : Type) (n : Nat) where
  start : Observation R n
  direction : Vector R n
  /-- The directional derivative at the start. -/
  slope : R
  mu : R

namespace SearchTask

/-- The point of a step. -/
def pointAt (task : SearchTask R n) (step : R) : Vector R n :=
  along task.start.point task.direction step

/-- The penalty function at the start. -/
def startPenalty (task : SearchTask R n) : R := task.start.penaltyAt task.mu

/-- The largest penalty that counts as a sufficient decrease at a step. -/
def decreaseBound (task : SearchTask R n) (o : SearchOptions R) (step : R) : R :=
  task.startPenalty + o.decrease * step * task.slope

/-- The evaluations allowed: the limit of any search, and one more limit for a direction that is
known not to descend. -/
def evaluationCap (task : SearchTask R n) (o : SearchOptions R) : Option Nat :=
  if 0 ≤ task.slope then some (match o.limit with
    | some limit => min limit o.nondescentLimit
    | none => o.nondescentLimit)
  else o.limit

end SearchTask

/-- How often a step along a direction of the given length may be halved. -/
def bisectionLimit (length : R) : Nat := max 30 (log2Nat (1e5 * length))

/-- How often a step along a direction of the given length may be doubled. -/
def expansionLimit (length : R) : Nat := max 10 (log2Nat (1e5 / length))

/-! ## Look-ups and trials -/

/-- The answer to a look-up. -/
inductive Lookup (R : Type) (n : Nat) where
  | evaluated (o : Observation R n)
  /-- The problem's answer is unusable. -/
  | rejected
  /-- Nothing was asked, because the budget is used up. -/
  | stopped

/-- A way to look the problem up. -/
abbrev Oracle (σ R : Type) (n : Nat) : Type := Vector R n → StateM σ (Lookup R n)

/-- An observation along the direction, weighed with the penalty parameter of the search. -/
structure Trial (R : Type) (n : Nat) where
  step : R
  iterate : Iterate R n

namespace Trial

/-- The trial of a step. -/
def ofObservation (task : SearchTask R n) (step : R) (o : Observation R n) : Trial R n where
  step
  iterate := o.weighed task.mu

/-- Value and gradient of the penalty function are finite. -/
def isUsable (t : Trial R n) : Bool := t.iterate.isUsable

/-- The penalty has decreased sufficiently. -/
def Decreases (task : SearchTask R n) (o : SearchOptions R) (t : Trial R n) : Prop :=
  t.iterate.penalty ≤ task.decreaseBound o t.step

instance instDecidableDecreases (task : SearchTask R n) (o : SearchOptions R) (t : Trial R n) :
    Decidable (t.Decreases task o) :=
  inferInstanceAs (Decidable (_ ≤ _))

/-- The better of the trials seen so far and a new one: an unusable trial never counts, and the
earlier of two equally low ones is kept. -/
def keepLower (best : Option (Trial R n)) (t : Trial R n) : Option (Trial R n) :=
  if t.isUsable then
    match best with
    | none => some t
    | some b => if t.iterate.penalty < b.iterate.penalty then some t else some b
  else best

end Trial

/-! ## Results -/

/-- Why a search failed. -/
inductive SearchFailure (R : Type) where
  /-- No step was too long; the next one would have been the one given. -/
  | notBracketed (step : R)
  /-- No step of the bracket was acceptable. -/
  | wolfeNotSatisfied (lower upper : R)
  /-- No halving of the step decreased enough. -/
  | armijoNotSatisfied
  /-- The direction does not descend, and no step along it was acceptable. -/
  | nonDescent
  /-- The budget was used up. -/
  | budgetExhausted

/-- A failed search. -/
structure SearchError (R : Type) (n : Nat) where
  reason : SearchFailure R
  evaluations : Nat
  /-- The first of the usable trials with the lowest penalty. -/
  kept : Option (Trial R n)

/-- A successful search. -/
structure SearchOutcome (R : Type) (n : Nat) where
  trial : Trial R n
  evaluations : Nat

/-- What a search came to. -/
abbrev SearchResult (R : Type) (n : Nat) : Type := Except (SearchError R n) (SearchOutcome R n)

end ExactPenalty
