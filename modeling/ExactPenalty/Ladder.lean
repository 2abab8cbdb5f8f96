import ExactPenalty.Options

/-!
# The ladder of search directions

A direction may fail: its quadratic program has no answer, it does not descend, or no step along it
is acceptable.  Within one iteration the method then falls back on simpler and simpler kinds of
directions.  The rungs are

  steering, steering with the identity, quasi-Newton, steepest descent, random,

and the last one may be tried several times, because each try draws a new direction.

* `Level` — the rungs, with their indices and their names.
* `initialLevel`, `transition` — where an iteration starts, and what follows a failure.  Where
  steering is not engaged its two rungs are skipped, unless the permitted range holds nothing else.
* `Ladder` — the position within one iteration.  `Ladder.remaining` counts what may still be tried,
  and falls with every failure until the ladder is exhausted.
-/

set_option autoImplicit false

namespace ExactPenalty

/-! ## Rungs -/

/-- The kinds of search directions, from the most to the least informed. -/
inductive Level where
  /-- The steered direction of the curvature matrix. -/
  | steering
  /-- The steered direction of the identity. -/
  | steeringIdentity
  | quasiNewton
  | steepestDescent
  /-- A random direction, turned round if it ascends. -/
  | random
  deriving DecidableEq, Repr

namespace Level

/-- The position on the ladder, from zero. -/
def index : Level → Nat
  | steering => 0
  | steeringIdentity => 1
  | quasiNewton => 2
  | steepestDescent => 3
  | random => 4

/-- The rung at a position. -/
def ofIndex? : Nat → Option Level
  | 0 => some steering
  | 1 => some steeringIdentity
  | 2 => some quasiNewton
  | 3 => some steepestDescent
  | 4 => some random
  | _ => none

theorem index_of_ofIndex? {i : Nat} {l : Level} (h : ofIndex? i = some l) : l.index = i := by
  unfold ofIndex? at h
  split at h <;> simp_all [index] <;> (subst h; rfl)

theorem ofIndex?_index (l : Level) : ofIndex? l.index = some l := by cases l <;> rfl

theorem index_le (l : Level) : l.index ≤ 4 := by cases l <;> decide

/-- A quadratic program is solved here when steering is engaged. -/
def usesSteering : Level → Bool
  | steering | steeringIdentity => true
  | _ => false

/-- The name of the kind of direction. -/
def name : Level → String
  | steering => "steering"
  | steeringIdentity => "steering (identity)"
  | quasiNewton => "quasi-Newton"
  | steepestDescent => "steepest descent"
  | random => "random"

/-- Index and name. -/
def text (l : Level) : String := toString l.index ++ " (" ++ l.name ++ ")"

end Level

/-! ## Transitions -/

/-- What follows a failure. -/
inductive Transition where
  /-- A higher rung. -/
  | escalated (level : Level)
  /-- Another random direction, with its number counted from one. -/
  | retry (attempt : Nat)
  /-- Nothing: everything permitted has failed. -/
  | exhausted
  deriving DecidableEq, Repr

/-- The steering rungs are left out. -/
def skipsSteering (max : Nat) (engaged : Bool) : Bool := !engaged && decide (2 ≤ max)

/-- The first rung of an iteration. -/
def initialLevel (min max : Nat) (engaged : Bool) : Level :=
  (Level.ofIndex? (if skipsSteering max engaged then Nat.max min 2 else min)).getD .random

/-- The position above a rung, past the steering rungs if they are left out. -/
def nextIndex (current : Level) (max : Nat) (engaged : Bool) : Nat :=
  if skipsSteering max engaged then Nat.max (current.index + 1) 2 else current.index + 1

theorem index_lt_nextIndex (current : Level) (max : Nat) (engaged : Bool) :
    current.index < nextIndex current max engaged := by
  unfold nextIndex
  split
  · exact Nat.lt_of_lt_of_le (Nat.lt_succ_self _) (Nat.le_max_left _ _)
  · exact Nat.lt_succ_self _

/-- What follows a failure on a rung. -/
def transition (current : Level) (attempts max maxRandomAttempts : Nat) (engaged : Bool) :
    Transition :=
  if current = .random then
    if attempts < maxRandomAttempts then .retry (attempts + 1) else .exhausted
  else
    match Level.ofIndex? (nextIndex current max engaged) with
    | some level => if nextIndex current max engaged ≤ max then .escalated level else .exhausted
    | none => .exhausted

/-! ## The position within an iteration -/

/-- How far an iteration has climbed. -/
structure Ladder where
  level : Level
  /-- Random directions tried, the present one included. -/
  attempts : Nat
  max : Nat
  maxRandomAttempts : Nat
  engaged : Bool
  exhausted : Bool
  deriving Repr

namespace Ladder

/-- The ladder at the start of an iteration. -/
def start (o : LadderOptions) (engaged : Bool) : Ladder :=
  let level := initialLevel o.min o.max engaged
  { level
    attempts := if level = .random then 1 else 0
    max := o.max
    maxRandomAttempts := o.maxRandomAttempts
    engaged
    exhausted := false }

/-- The transition after a failure at the present position. -/
def next (l : Ladder) : Transition :=
  if l.exhausted then .exhausted
  else transition l.level l.attempts l.max l.maxRandomAttempts l.engaged

/-- The ladder after a transition. -/
def after (l : Ladder) : Transition → Ladder
  | .escalated level => { l with level, attempts := if level = .random then 1 else l.attempts }
  | .retry attempt => { l with attempts := attempt }
  | .exhausted => { l with exhausted := true }

/-- Records a failure at the present position. -/
def climb (l : Ladder) : Transition × Ladder := (l.next, l.after l.next)

/-- A bound on the failures that can still follow before the ladder is exhausted. -/
def remaining (l : Ladder) : Nat :=
  (4 - l.level.index) * (l.maxRandomAttempts + l.attempts + 2) + (l.maxRandomAttempts - l.attempts)

/-- An escalation goes to a higher rung. -/
theorem index_lt_of_transition {current level : Level} {attempts max maxRandom : Nat}
    {engaged : Bool} (h : transition current attempts max maxRandom engaged = .escalated level) :
    current.index < level.index := by
  unfold transition at h
  split at h
  · split at h <;> cases h
  · split at h
    · rename_i found
      split at h <;> cases h
      exact Level.index_of_ofIndex? found ▸ index_lt_nextIndex current max engaged
    · cases h

/-- A retry happens on the random rung only, and counts one more attempt within the limit. -/
theorem retry_of_transition {current : Level} {attempts max maxRandom attempt : Nat}
    {engaged : Bool} (h : transition current attempts max maxRandom engaged = .retry attempt) :
    current = .random ∧ attempts < maxRandom ∧ attempt = attempts + 1 := by
  unfold transition at h
  split at h
  · rename_i hc
    split at h <;> cases h
    exact ⟨hc, by assumption, rfl⟩
  · split at h
    · split at h <;> cases h
    · cases h

/-- Every failure brings the ladder closer to its end. -/
theorem remaining_climb_lt (l : Ladder) (h : l.next ≠ .exhausted) :
    (l.climb).2.remaining < l.remaining := by
  have hn : l.next = transition l.level l.attempts l.max l.maxRandomAttempts l.engaged := by
    unfold next at h ⊢
    split <;> simp_all
  unfold climb
  cases ht : l.next with
  | exhausted => exact absurd ht h
  | escalated level =>
    have hlt := index_lt_of_transition (hn.symm.trans ht)
    have hle := level.index_le
    simp only [after, remaining]
    split
    · subst level
      have : 1 ≤ 4 - l.level.index := by simp only [Level.index] at hlt ⊢; omega
      have := Nat.mul_le_mul_right (l.maxRandomAttempts + l.attempts + 2) this
      simp only [Level.index] at *
      omega
    · have : 4 - level.index + 1 ≤ 4 - l.level.index := by omega
      have := Nat.mul_le_mul_right (l.maxRandomAttempts + l.attempts + 2) this
      rw [Nat.add_mul] at this
      omega
  | retry attempt =>
    obtain ⟨hl, hlt, rfl⟩ := retry_of_transition (hn.symm.trans ht)
    simp only [after, remaining, hl, Level.index]
    omega

end Ladder

end ExactPenalty
