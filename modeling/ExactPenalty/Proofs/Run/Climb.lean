import ExactPenalty.Proofs.Action
import ExactPenalty.Proofs.Ladder
import ExactPenalty.Proofs.Machine
import ExactPenalty.Run.Climb
import Mathlib.Tactic.SplitIfs

/-!
# Climbing the ladder, attempt by attempt

A climb is two loops, one inside the other: the rungs, and the reattempts on a rung.  Here they are
one: `IterationContext.climbRound` makes one attempt at the rung of a `ClimbStage` and says what
follows, and `ends_climbFrom` says that a climb comes to the result of its rounds.

## What is here

* `IterationContext.Attempted`, `attempted_tryOnce` — everything that one attempt can do, with the
  session before and after.
* `IterationContext.Round`, `round_climbRound` — what a round makes of it.
* `rel_climbFrom`, `rel_run` — what every attempt does to the climb and its session, the climb and
  the iteration do.
* `exists_last_attempt` — the attempt that a climb ends with, at a stage that keeps an invariant.
* `force_eq_ok`, `run_eq_ok`, `force_eq_error`, `run_eq_error` — what an iteration makes of the climb.
-/

set_option autoImplicit false

namespace ExactPenalty

open Session ExactPenalty.Action

variable {σ R : Type} [Scalar R] {n : Nat}

/-- A climb before an attempt. -/
structure ClimbStage (σ R : Type) (n : Nat) where
  ladder : Ladder
  /-- The reattempts that are left on the rung. -/
  left : Nat
  climb : Climb R n
  session : Session σ R n

/-- How a climb ended, and in which session. -/
abbrev ClimbResult (σ R : Type) (n : Nat) : Type := (ClimbEnd R n × Climb R n) × Session σ R n

/-! ## Searching along a direction -/

/-- The penalty parameter is lowered to that of a direction. -/
def Climb.lowered (c : Climb R n) (d : Direction R n) : Climb R n :=
  if d.mu < c.mu then { c with mu := d.mu } else c

theorem Climb.reattempts_lowered (c : Climb R n) (d : Direction R n) :
    (c.lowered d).reattempts = c.reattempts := by
  rw [lowered]
  split_ifs <;> rfl

/-- The penalty parameter is lowered for another attempt. -/
def Climb.reattempted (c : Climb R n) (factor : R) : Climb R n :=
  { c with mu := c.mu * factor, reattempts := c.reattempts + 1 }

namespace IterationContext

/-- What is searched along a direction. -/
def task (it : IterationContext σ R n) (c : Climb R n) (d : Direction R n) : SearchTask R n where
  start := it.observation
  direction := d.vector
  slope := d.slope
  mu := c.mu

/-- The step of an accepted trial. -/
def acceptedMove (c : Climb R n) (d : Direction R n) (out : SearchOutcome R n) : Move R n where
  target := out.trial.iterate.toObservation
  direction := d
  step := out.trial.step
  evaluations := c.evaluations + out.evaluations
  reattempts := c.reattempts
  forced := false

variable {it : IterationContext σ R n} {level : Level} {left : Nat} {c : Climb R n}
    {s : Session σ R n}

/-- The direction of a rung is the result of an attempt in the world and with the generator of the
session. -/
theorem fst_makeDirection (μ : R) :
    (it.makeDirection level μ s).1
      = (it.toDirectionContext.attempt it.env.solve it.options level μ s.generator
          s.world).1.1.result := rfl

/-- The attempt that made a direction is noted. -/
theorem exists_attempt_of_makeDirection {μ : R} {result : Except (DirectionError R n) (Direction R n)}
    {s' : Session σ R n} (h : it.makeDirection level μ s = (result, s')) :
    ∃ attempt : DirectionAttempt R n,
      (it.toDirectionContext.attempt it.env.solve it.options level μ s.generator s.world).1.1
        = attempt ∧
      attempt.result = result ∧
      s'.transcript.toList = s.transcript.toList ++ [.attempted attempt] :=
  ⟨_, rfl, congrArg Prod.fst h, (congrArg (·.2.transcript.toList) h).symm.trans Array.toList_push⟩

/-- A search starts from the lowered penalty parameter, and a lowering is noted before. -/
theorem searchAlong_eq {d : Direction R n} {r : SearchResult R n} {c' : Climb R n}
    {s' : Session σ R n} (h : it.searchAlong c d s = ((r, c'), s')) :
    c' = c.lowered d ∧ ∃ s₁ s₂, lineSearch it.lookUp (it.task c' d) it.options.search s₁ = (r, s₂) ∧
      s' = (note (.searched (it.task c' d) r) s₂).2 ∧
      (s₁ = s ∨ s₁ = (note (.lowered c.mu d.mu) s).2) := by
  have hc : (if decide (d.mu < c.mu) = true then { c with mu := d.mu } else c) = c.lowered d := by
    rw [Climb.lowered]
    simp only [decide_eq_true_eq]
  rw [searchAlong] at h
  by_cases hlowers : d.mu < c.mu
  · simp only [hlowers, decide_true, if_true, bind_apply, pure_apply] at h
    cases h
    exact ⟨(if_pos hlowers).symm, _, _, rfl, rfl, .inr rfl⟩
  · simp only [hlowers, decide_false, Bool.false_eq_true, if_false, bind_apply, pure_apply] at h
    cases h
    exact ⟨(if_neg hlowers).symm, _, _, rfl, rfl, .inl rfl⟩

/-- A direction that was made for the penalty parameter in force is searched with it. -/
theorem searchAlong_of_not_lt (it : IterationContext σ R n) (c : Climb R n) {d : Direction R n}
    {r : SearchResult R n} {s' : Session σ R n} (hmu : ¬ d.mu < c.mu)
    (h : lineSearch it.lookUp (it.task c d) it.options.search s = (r, s')) :
    it.searchAlong c d s = ((r, c), (note (.searched (it.task c d) r) s').2) := by
  rw [task] at h
  rw [searchAlong]
  simp only [hmu, decide_false, Bool.false_eq_true, if_false, bind_apply, pure_apply, h, task]

/-! ## One attempt -/

/-- One attempt at a rung: how the rung ends, or `none` if it is to be tried again. -/
def tryOnce (it : IterationContext σ R n) (level : Level) (left : Nat) (c : Climb R n) :
    SessionM σ R n (Option (ClimbEnd R n) × Climb R n) := do
  match ← it.makeDirection level c.mu with
  | .error (.qp _) => return (some (.failed .qp), c)
  | .error (.nonDescent d) =>
    return (some (.failed .noDescent), { c with lastDirection := some d, lastTrial := none })
  | .error .degenerate => return (some (.failed .noDescent), c)
  | .ok d =>
    match ← it.searchAlong c d with
    | (.ok outcome, c) => return (some (.moved (acceptedMove c d outcome)), c)
    | (.error e, c) =>
      let c := c.searched d e
      match e.reason with
      | .budgetExhausted => return (some (.stopped (it.stopReason (← get))), c)
      | .nonDescent => return (some (.failed .noDescent), c)
      | .wolfeNotSatisfied _ _ | .armijoNotSatisfied => return (some (.failed .unacceptable), c)
      | .notBracketed _ =>
        if it.observation.isConstrained ∧ left ≠ 0 then
          let limit := it.reattempts.limit
          note (.reattempted level (limit - (left - 1)) limit (c.mu * it.reattempts.factor))
          return (none, c.reattempted it.reattempts.factor)
        else return (some (.failed .unbounded), c)

variable (it level left c s) in
/-- What an attempt can do: how the rung ends if it does, the climb, and the session. -/
inductive Attempted : Option (ClimbEnd R n) → Climb R n → Session σ R n → Prop where
  /-- The quadratic program of the rung was not solved. -/
  | qp {e s₁} : it.makeDirection level c.mu s = (.error (.qp e), s₁) →
      Attempted (some (.failed .qp)) c s₁
  /-- The direction does not descend. -/
  | nonDescent {d s₁} : it.makeDirection level c.mu s = (.error (.nonDescent d), s₁) →
      Attempted (some (.failed .noDescent)) { c with lastDirection := some d, lastTrial := none } s₁
  | degenerate {s₁} : it.makeDirection level c.mu s = (.error .degenerate, s₁) →
      Attempted (some (.failed .noDescent)) c s₁
  /-- A step was accepted. -/
  | moved {d s₁ out c' s₂} : it.makeDirection level c.mu s = (.ok d, s₁) →
      it.searchAlong c d s₁ = ((.ok out, c'), s₂) →
      Attempted (some (.moved (acceptedMove c' d out))) c' s₂
  /-- The search met the end of the budget. -/
  | stopped {d s₁ e c' s₂} : it.makeDirection level c.mu s = (.ok d, s₁) →
      it.searchAlong c d s₁ = ((.error e, c'), s₂) → e.reason = .budgetExhausted →
      Attempted (some (.stopped (it.stopReason s₂))) (c'.searched d e) s₂
  /-- The search found that the direction does not descend. -/
  | ascending {d s₁ e c' s₂} : it.makeDirection level c.mu s = (.ok d, s₁) →
      it.searchAlong c d s₁ = ((.error e, c'), s₂) → e.reason = .nonDescent →
      Attempted (some (.failed .noDescent)) (c'.searched d e) s₂
  /-- The search found no acceptable step. -/
  | unacceptable {d s₁ e c' s₂} : it.makeDirection level c.mu s = (.ok d, s₁) →
      it.searchAlong c d s₁ = ((.error e, c'), s₂) →
      (∃ l u, e.reason = .wolfeNotSatisfied l u) ∨ e.reason = .armijoNotSatisfied →
      Attempted (some (.failed .unacceptable)) (c'.searched d e) s₂
  /-- The search could not bracket a step, and the rung is not tried again. -/
  | unbounded {d s₁ e c' s₂} {t : R} : it.makeDirection level c.mu s = (.ok d, s₁) →
      it.searchAlong c d s₁ = ((.error e, c'), s₂) → e.reason = .notBracketed t →
      ¬(it.observation.isConstrained ∧ left ≠ 0) →
      Attempted (some (.failed .unbounded)) (c'.searched d e) s₂
  /-- The search could not bracket a step, and the rung is tried again. -/
  | again {d s₁ e c' s₂} {t : R} : it.makeDirection level c.mu s = (.ok d, s₁) →
      it.searchAlong c d s₁ = ((.error e, c'), s₂) → e.reason = .notBracketed t →
      it.observation.isConstrained → left ≠ 0 →
      Attempted none ((c'.searched d e).reattempted it.reattempts.factor)
        (note (.reattempted level (it.reattempts.limit - (left - 1)) it.reattempts.limit
          ((c'.searched d e).mu * it.reattempts.factor)) s₂).2

/-- An attempt does one of the things that an attempt can do. -/
theorem attempted_tryOnce (it : IterationContext σ R n) (level : Level) (left : Nat)
    (c : Climb R n) (s : Session σ R n) :
    it.Attempted level left c s (it.tryOnce level left c s).1.1 (it.tryOnce level left c s).1.2
      (it.tryOnce level left c s).2 := by
  rw [tryOnce, bind_apply]
  rcases hd : it.makeDirection level c.mu s with ⟨(e | d | _) | d, s₁⟩
  · exact .qp hd
  · exact .nonDescent hd
  · exact .degenerate hd
  · dsimp only
    rw [bind_apply]
    rcases hs : it.searchAlong c d s₁ with ⟨⟨e | out, c'⟩, s₂⟩
    · dsimp only
      cases hr : e.reason with
      | notBracketed t =>
        dsimp only
        split_ifs with hagain
        · exact .again hd hs hr hagain.1 hagain.2
        · exact .unbounded hd hs hr hagain
      | wolfeNotSatisfied l u => exact .unacceptable hd hs (.inl ⟨l, u, hr⟩)
      | armijoNotSatisfied => exact .unacceptable hd hs (.inr hr)
      | nonDescent => exact .ascending hd hs hr
      | budgetExhausted => exact .stopped hd hs hr
    · exact .moved hd hs

theorem tryOnce_of_ok (it : IterationContext σ R n) (left : Nat) (c : Climb R n)
    {d : Direction R n} {out : SearchOutcome R n} {c' : Climb R n} {s₁ s₂ : Session σ R n}
    (hd : it.makeDirection level c.mu s = (.ok d, s₁))
    (hs : it.searchAlong c d s₁ = ((.ok out, c'), s₂)) :
    it.tryOnce level left c s = ((some (.moved (acceptedMove c' d out)), c'), s₂) := by
  rw [tryOnce, bind_apply, hd]
  dsimp only
  rw [bind_apply, hs]
  rfl

theorem tryOnce_of_stopped (it : IterationContext σ R n) (left : Nat) (c : Climb R n)
    {d : Direction R n} {e : SearchError R n} {c' : Climb R n} {s₁ s₂ : Session σ R n}
    (hd : it.makeDirection level c.mu s = (.ok d, s₁))
    (hs : it.searchAlong c d s₁ = ((.error e, c'), s₂)) (hreason : e.reason = .budgetExhausted) :
    it.tryOnce level left c s = ((some (.stopped (it.stopReason s₂)), c'.searched d e), s₂) := by
  rw [tryOnce, bind_apply, hd]
  dsimp only
  rw [bind_apply, hs]
  dsimp only
  rw [hreason]
  rfl

/-- A rung is tried again with one reattempt less, until an attempt ends it. -/
theorem tryLevel_apply (it : IterationContext σ R n) (level : Level) (left : Nat) (c : Climb R n)
    (s : Session σ R n) :
    it.tryLevel level left c s = match it.tryOnce level left c s with
      | ((none, c), s) => it.tryLevel level (left - 1) c s
      | ((some ended, c), s) => ((ended, c), s) := by
  rw [tryLevel.eq_def, tryOnce]
  dsimp only
  rw [bind_apply, bind_apply]
  rcases it.makeDirection level c.mu s with ⟨(e | d | _) | d, s₁⟩
  · rfl
  · rfl
  · rfl
  · dsimp only
    rw [bind_apply, bind_apply]
    rcases it.searchAlong c d s₁ with ⟨⟨e | out, c'⟩, s₂⟩
    · dsimp only
      cases e.reason with
      | notBracketed t =>
        dsimp only
        by_cases hconstrained : it.observation.isConstrained = true
        · cases left with
          | zero =>
            rw [if_pos hconstrained, if_neg (by simp)]
            rfl
          | succ left =>
            rw [if_pos hconstrained, if_pos ⟨hconstrained, Nat.succ_ne_zero left⟩]
            rfl
        · rw [if_neg hconstrained, if_neg fun h ↦ hconstrained h.1]
          rfl
      | wolfeNotSatisfied l u => rfl
      | armijoNotSatisfied => rfl
      | nonDescent => rfl
      | budgetExhausted => rfl
    · rfl

/-- A direction that could not be made fails the rung, at the penalty parameter in force. -/
theorem tryLevel_of_error {e : DirectionError R n} {s' : Session σ R n} (left : Nat)
    (h : it.makeDirection level c.mu s = (.error e, s')) :
    ∃ failure c', it.tryLevel level left c s = ((.failed failure, c'), s') ∧ c'.mu = c.mu := by
  rw [tryLevel_apply, tryOnce, bind_apply, h]
  cases e with
  | qp _ => exact ⟨_, _, rfl, rfl⟩
  | nonDescent _ => exact ⟨_, _, rfl, rfl⟩
  | degenerate => exact ⟨_, _, rfl, rfl⟩

/-! ## Rounds -/

/-- One round of a climb: an attempt, and the next rung after a failure. -/
def climbRound (it : IterationContext σ R n) (a : ClimbStage σ R n) :
    ClimbStage σ R n ⊕ ClimbResult σ R n :=
  match it.tryOnce a.ladder.level a.left a.climb a.session with
  | ((none, c), s) => .inl { a with left := a.left - 1, climb := c, session := s }
  | ((some (.failed failure), c), s) =>
    let s := (note (.failed a.ladder a.ladder.next) s).2
    if a.ladder.next = .exhausted then .inr ((.failed failure, c), s)
    else .inl
      { ladder := a.ladder.climb.2, left := it.reattempts.limit, climb := c, session := s }
  | ((some ended, c), s) => .inr ((ended, c), s)

/-- The climb from a stage on. -/
def climbOn (it : IterationContext σ R n) (a : ClimbStage σ R n) : ClimbResult σ R n :=
  match it.tryLevel a.ladder.level a.left a.climb a.session with
  | ((.failed failure, c), s) =>
    let s := (note (.failed a.ladder a.ladder.next) s).2
    if a.ladder.next = .exhausted then ((.failed failure, c), s)
    else it.climbFrom a.ladder.climb.2 c s
  | ended => ended

theorem climbFrom_eq (ladder : Ladder) :
    it.climbFrom ladder c s = it.climbOn ⟨ladder, it.reattempts.limit, c, s⟩ := by
  rw [climbFrom, climbOn, bind_apply]
  rcases it.tryLevel ladder.level it.reattempts.limit c s with ⟨⟨move | failure | reason, c'⟩, s'⟩
  · rfl
  · dsimp only
    rw [bind_apply]
    split_ifs <;> rfl
  · rfl

theorem climbOn_apply (a : ClimbStage σ R n) :
    it.climbOn a = (it.climbRound a).elim it.climbOn id := by
  rw [climbOn, tryLevel_apply, climbRound]
  rcases it.tryOnce a.ladder.level a.left a.climb a.session with
    ⟨⟨_ | move | failure | reason, c'⟩, s'⟩
  · rfl
  · rfl
  · dsimp only
    split_ifs
    · rfl
    · exact climbFrom_eq _
  · rfl

/-- The attempts that can still follow. -/
def attemptsLeft (it : IterationContext σ R n) (a : ClimbStage σ R n) : Nat :=
  a.ladder.remaining * (it.reattempts.limit + 1) + a.left

/-- What a round can do: try the rung again, go on to the next rung, or end the climb. -/
inductive Round (it : IterationContext σ R n) (a : ClimbStage σ R n) :
    ClimbStage σ R n ⊕ ClimbResult σ R n → Prop where
  | again {c' s'} : it.Attempted a.ladder.level a.left a.climb a.session none c' s' →
      Round it a (.inl { a with left := a.left - 1, climb := c', session := s' })
  | escalated {f c' s'} :
      it.Attempted a.ladder.level a.left a.climb a.session (some (.failed f)) c' s' →
      a.ladder.next ≠ .exhausted →
      Round it a (.inl
        { ladder := a.ladder.climb.2
          left := it.reattempts.limit
          climb := c'
          session := (note (.failed a.ladder a.ladder.next) s').2 })
  | exhausted {f c' s'} :
      it.Attempted a.ladder.level a.left a.climb a.session (some (.failed f)) c' s' →
      a.ladder.next = .exhausted →
      Round it a (.inr ((.failed f, c'), (note (.failed a.ladder a.ladder.next) s').2))
  | ended {e c' s'} : it.Attempted a.ladder.level a.left a.climb a.session (some e) c' s' →
      (∀ f, e ≠ .failed f) → Round it a (.inr ((e, c'), s'))

/-- A round does one of the things that a round can do. -/
theorem round_climbRound (it : IterationContext σ R n) (a : ClimbStage σ R n) :
    it.Round a (it.climbRound a) := by
  have h := it.attempted_tryOnce a.ladder.level a.left a.climb a.session
  rw [climbRound]
  rcases ht : it.tryOnce a.ladder.level a.left a.climb a.session with
    ⟨⟨_ | move | failure | reason, c'⟩, s'⟩ <;> rw [ht] at h
  · exact .again h
  · exact .ended h fun f ↦ (nomatch ·)
  · dsimp only
    split_ifs with hnext
    · exact .exhausted h hnext
    · exact .escalated h hnext
  · exact .ended h fun f ↦ (nomatch ·)

theorem attemptsLeft_lt {a b : ClimbStage σ R n} (h : it.climbRound a = .inl b) :
    it.attemptsLeft b < it.attemptsLeft a := by
  have hround := it.round_climbRound a
  rw [h] at hround
  cases hround with
  | again hattempt =>
    have hleft : a.left ≠ 0 := by cases hattempt; assumption
    exact Nat.add_lt_add_left (Nat.sub_one_lt hleft) _
  | escalated _ hnext =>
    have hlt := Nat.mul_le_mul_right (it.reattempts.limit + 1) (a.ladder.remaining_climb_lt hnext)
    rw [Nat.succ_mul] at hlt
    simp only [attemptsLeft]
    omega

/-- A climb stays within the permitted range. -/
theorem isWithin_climbRound {max : Nat} {a b : ClimbStage σ R n} (h : it.climbRound a = .inl b)
    (ha : a.ladder.IsWithin max) : b.ladder.IsWithin max := by
  have hround := it.round_climbRound a
  rw [h] at hround
  cases hround with
  | again _ => exact ha
  | escalated _ hnext => exact ha.climb hnext

/-- **A climb comes to the result of its rounds.** -/
theorem ends_climbFrom (it : IterationContext σ R n) (ladder : Ladder) (c : Climb R n)
    (s : Session σ R n) :
    Ends it.climbRound ⟨ladder, it.reattempts.limit, c, s⟩ (it.climbFrom ladder c s) := by
  rw [climbFrom_eq]
  exact ends_of_measure climbOn_apply it.attemptsLeft (fun _ _ ↦ attemptsLeft_lt) _

section Rel

variable {T : Type} {rel : T → T → Prop} [IsPreorder T rel] {f : Climb R n → Session σ R n → T}
    (hattempt : ∀ {level left c s e c' s'}, it.Attempted level left c s e c' s' →
      rel (f c s) (f c' s'))
    (hfailed : ∀ c ladder next s, rel (f c s) (f c (note (.failed ladder next) s).2))
include hattempt hfailed

/-- What an attempt does to the climb and its session, and the note of a failure to the session, a
round does. -/
theorem rel_climbRound (a : ClimbStage σ R n) : rel (f a.climb a.session)
    ((it.climbRound a).elim (fun b ↦ f b.climb b.session) fun r ↦ f r.1.2 r.2) := by
  have hround := it.round_climbRound a
  rcases hresult : it.climbRound a with b | r <;> rw [hresult] at hround
  · cases hround with
    | again h => exact hattempt h
    | escalated h _ => exact trans_of rel (hattempt h) (hfailed _ _ _ _)
  · cases hround with
    | exhausted h _ => exact trans_of rel (hattempt h) (hfailed _ _ _ _)
    | ended h _ => exact hattempt h

/-- And so does the climb. -/
theorem rel_climbFrom (ladder : Ladder) (c : Climb R n) (s : Session σ R n) :
    rel (f c s) (f (it.climbFrom ladder c s).1.2 (it.climbFrom ladder c s).2) :=
  (it.ends_climbFrom ladder c s).rel (f := fun a ↦ f a.climb a.session)
    (g := fun r ↦ f r.1.2 r.2) (rel_climbRound hattempt hfailed)

end Rel

/-- A step that the first attempt accepts ends the climb. -/
theorem climbFrom_of_tryOnce {ladder : Ladder} {move : Move R n} {c' : Climb R n}
    {s' : Session σ R n}
    (h : it.tryOnce ladder.level it.reattempts.limit c s = ((some (.moved move), c'), s')) :
    it.climbFrom ladder c s = ((.moved move, c'), s') := by
  rw [climbFrom_eq, climbOn_apply, climbRound, h]
  rfl

/-- **A climb ends with an attempt**, at a stage that keeps an invariant; if that attempt failed, the
ladder was exhausted. -/
theorem exists_last_attempt {P : ClimbStage σ R n → Prop}
    (hround : ∀ a b, it.climbRound a = .inl b → P a → P b) {ladder : Ladder} {e : ClimbEnd R n}
    {c' : Climb R n} {s' : Session σ R n} (hstart : P ⟨ladder, it.reattempts.limit, c, s⟩)
    (h : it.climbFrom ladder c s = ((e, c'), s')) :
    ∃ a s₁, P a ∧ it.Attempted a.ladder.level a.left a.climb a.session (some e) c' s₁ ∧
      ((∃ f, e = .failed f) ∧ a.ladder.next = .exhausted ∧
          s' = (note (.failed a.ladder a.ladder.next) s₁).2 ∨
        (∀ f, e ≠ .failed f) ∧ s' = s₁) := by
  obtain ⟨a, ha, hlast⟩ := (h ▸ it.ends_climbFrom ladder c s).exists_last hround hstart
  have hend := it.round_climbRound a
  rw [hlast] at hend
  cases hend with
  | exhausted hattempt hnext => exact ⟨a, _, ha, hattempt, .inl ⟨⟨_, rfl⟩, hnext, rfl⟩⟩
  | ended hattempt hfailed => exact ⟨a, _, ha, hattempt, .inr ⟨hfailed, rfl⟩⟩

/-- A climb that ends with a step has ended in an attempt that accepted it. -/
theorem exists_moved {P : ClimbStage σ R n → Prop}
    (hround : ∀ a b, it.climbRound a = .inl b → P a → P b) {ladder : Ladder} {move : Move R n}
    {c' : Climb R n} {s' : Session σ R n} (hstart : P ⟨ladder, it.reattempts.limit, c, s⟩)
    (h : it.climbFrom ladder c s = ((.moved move, c'), s')) :
    ∃ a d s₁ out, P a ∧ it.makeDirection a.ladder.level a.climb.mu a.session = (.ok d, s₁) ∧
      it.searchAlong a.climb d s₁ = ((.ok out, c'), s') ∧ move = acceptedMove c' d out := by
  obtain ⟨a, s₁, ha, hattempt, ⟨⟨f, hf⟩, -⟩ | ⟨-, rfl⟩⟩ := exists_last_attempt hround hstart h
  · cases hf
  · cases hattempt with
    | moved hd hs => exact ⟨a, _, _, _, ha, hd, hs, rfl⟩

/-! ## Forced steps -/

/-- A forced step goes to the trial that the last search kept, or else to the first step along the
last direction. -/
theorem force_eq_ok {reason : Termination} {move : Move R n} {s' : Session σ R n}
    (h : it.force c reason s = (.ok move, s')) :
    ∃ d, c.lastDirection = some d ∧
      ((∃ trial, c.lastTrial = some trial ∧
          move = forcedMove c d trial.step trial.iterate.toObservation c.evaluations ∧
          s' = (note (.forced trial.step d.level) s).2) ∨
        (c.lastTrial = none ∧ ∃ o s₁,
          it.lookUp (Linear.along it.observation.point d.vector it.options.search.initialStep) s
            = (.evaluated o, s₁) ∧
          move = forcedMove c d it.options.search.initialStep o (c.evaluations + 1) ∧
          s' = (note (.forced it.options.search.initialStep d.level) s₁).2)) := by
  rw [force] at h
  cases hd : c.lastDirection with
  | none => rw [hd] at h; cases h
  | some d =>
    refine ⟨d, rfl, ?_⟩
    rw [hd] at h
    dsimp only at h
    cases ht : c.lastTrial with
    | some trial =>
      rw [ht] at h
      cases h
      exact .inl ⟨trial, rfl, rfl, rfl⟩
    | none =>
      rw [ht] at h
      dsimp only at h
      rw [bind_apply] at h
      rcases hlook : it.lookUp (Linear.along it.observation.point d.vector
        it.options.search.initialStep) s with ⟨o | _ | _, s₁⟩ <;> rw [hlook] at h <;> cases h
      exact .inr ⟨rfl, o, s₁, rfl, rfl, rfl⟩

/-- A step cannot be forced where there is no direction, where the first step along the last direction
is rejected, or where the budget is used up. -/
theorem force_eq_error {reason reason' : Termination} {s' : Session σ R n}
    (h : it.force c reason s = (.error reason', s')) :
    (reason' = reason ∧ c.lastDirection = none ∧ s' = (note .nothingToForce s).2) ∨
      ∃ d answer, c.lastDirection = some d ∧ c.lastTrial = none ∧
        it.lookUp (Linear.along it.observation.point d.vector it.options.search.initialStep) s
          = (answer, s') ∧
        (answer = .rejected ∧ reason' = reason ∨
          answer = .stopped ∧ reason' = it.stopReason s') := by
  rw [force] at h
  cases hd : c.lastDirection with
  | none =>
    rw [hd] at h
    cases h
    exact .inl ⟨rfl, rfl, rfl⟩
  | some d =>
    rw [hd] at h
    dsimp only at h
    cases ht : c.lastTrial with
    | some trial => rw [ht] at h; cases h
    | none =>
      rw [ht] at h
      dsimp only at h
      rw [bind_apply] at h
      rcases hlook : it.lookUp (Linear.along it.observation.point d.vector
        it.options.search.initialStep) s with ⟨o | _ | _, s₁⟩ <;> rw [hlook] at h <;> cases h
      · exact .inr ⟨d, _, rfl, rfl, hlook, .inl ⟨rfl, rfl⟩⟩
      · exact .inr ⟨d, _, rfl, rfl, hlook, .inr ⟨rfl, rfl⟩⟩

theorem forced_of_force_eq_ok {reason : Termination} {move : Move R n} {s' : Session σ R n}
    (h : it.force c reason s = (.ok move, s')) : move.forced = true := by
  obtain ⟨d, -, ⟨_, -, rfl, -⟩ | ⟨-, _, _, -, rfl, -⟩⟩ := force_eq_ok h <;> rfl

/-! ## An iteration -/

theorem run_of_moved {μ : R} {move : Move R n} {c' : Climb R n} {s' : Session σ R n}
    (h : it.climbFrom (.start it.options.ladder it.engaged) (.start μ) s
      = ((.moved move, c'), s')) :
    it.run μ s = ((.ok move, c'.mu), s') := by
  rw [run, bind_apply, h]
  rfl

/-- The step of an iteration is the one that the climb ended with, or one that was forced after the
climb had failed. -/
theorem run_eq_ok {μ μ' : R} {move : Move R n} {s' : Session σ R n}
    (h : it.run μ s = ((.ok move, μ'), s')) :
    ∃ c, μ' = c.mu ∧
      (it.climbFrom (.start it.options.ladder it.engaged) (.start μ) s = ((.moved move, c), s') ∨
        ∃ failure reason s₁,
          it.climbFrom (.start it.options.ladder it.engaged) (.start μ) s
            = ((.failed failure, c), s₁) ∧
          it.options.forceMovement = true ∧ it.force c reason s₁ = (.ok move, s')) := by
  rw [run, bind_apply] at h
  rcases hclimb : it.climbFrom (.start it.options.ladder it.engaged) (.start μ) s with
    ⟨⟨move' | failure | reason, c⟩, s₁⟩ <;> rw [hclimb] at h
  · cases h
    exact ⟨c, rfl, .inl rfl⟩
  · dsimp only at h
    split_ifs at h with hforce
    · rw [bind_apply] at h
      rcases hmove : it.force c (failure.termination
        (it.observation.isFeasible it.options.stopping.ineqTol it.options.stopping.eqTol)) s₁ with
        ⟨_ | move', s₂⟩ <;> rw [hmove] at h <;> cases h
      exact ⟨c, rfl, .inr ⟨failure, _, s₁, rfl, hforce, hmove⟩⟩
    · cases h
  · cases h

/-- An iteration without a step is one whose climb was stopped, or failed where no step could be
forced. -/
theorem run_eq_error {μ μ' : R} {reason : Termination} {s' : Session σ R n}
    (h : it.run μ s = ((.error reason, μ'), s')) :
    ∃ c, μ' = c.mu ∧
      (it.climbFrom (.start it.options.ladder it.engaged) (.start μ) s
          = ((.stopped reason, c), s') ∨
        ∃ failure s₁,
          it.climbFrom (.start it.options.ladder it.engaged) (.start μ) s
            = ((.failed failure, c), s₁) ∧
          (it.options.forceMovement = false ∧ s' = s₁ ∧
              reason = failure.termination (it.observation.isFeasible
                it.options.stopping.ineqTol it.options.stopping.eqTol) ∨
            it.options.forceMovement = true ∧
              it.force c (failure.termination (it.observation.isFeasible
                it.options.stopping.ineqTol it.options.stopping.eqTol)) s₁
                = (.error reason, s'))) := by
  rw [run, bind_apply] at h
  rcases hclimb : it.climbFrom (.start it.options.ladder it.engaged) (.start μ) s with
    ⟨⟨move' | failure | reason', c⟩, s₁⟩ <;> rw [hclimb] at h
  · cases h
  · dsimp only at h
    split_ifs at h with hforce
    · rw [bind_apply] at h
      rcases hmove : it.force c (failure.termination
        (it.observation.isFeasible it.options.stopping.ineqTol it.options.stopping.eqTol)) s₁ with
        ⟨reason' | _, s₂⟩ <;> rw [hmove] at h <;> cases h
      exact ⟨c, rfl, .inr ⟨failure, s₁, rfl, .inr ⟨hforce, hmove⟩⟩⟩
    · cases h
      exact ⟨c, rfl, .inr ⟨failure, s', rfl, .inl ⟨Bool.eq_false_iff.2 hforce, rfl, rfl⟩⟩⟩
  · cases h
    exact ⟨c, rfl, .inl rfl⟩

/-- After its climb an iteration does nothing but force a step. -/
theorem exists_climb_of_run {rel : Session σ R n → Session σ R n → Prop}
    [IsPreorder (Session σ R n) rel] (hforce : ∀ c reason, Leads rel (it.force c reason)) {μ : R}
    {answer : Except Termination (Move R n) × R} {s' : Session σ R n}
    (h : it.run μ s = (answer, s')) :
    ∃ ended s₁, it.climbFrom (.start it.options.ladder it.engaged) (.start μ) s = (ended, s₁) ∧
      rel s₁ s' := by
  rw [run, bind_apply] at h
  rcases hclimb : it.climbFrom (.start it.options.ladder it.engaged) (.start μ) s with ⟨⟨e, c⟩, s₁⟩
  rw [hclimb] at h
  refine ⟨_, s₁, rfl, ?_⟩
  cases e with
  | moved move | stopped reason =>
    cases h
    exact refl_of rel _
  | failed failure =>
    dsimp only at h
    split_ifs at h
    · rw [bind_apply] at h
      cases h
      exact hforce c _ s₁
    · cases h
      exact refl_of rel _

/-- What the attempts of an iteration do to the climb and its session, and a forced step to the
session, the iteration does; and a move reports the reattempts of the climb. -/
theorem rel_run {T : Type} {rel : T → T → Prop} [IsPreorder T rel] {f : Climb R n → Session σ R n → T}
    (hattempt : ∀ {level left c s e c' s'}, it.Attempted level left c s e c' s' →
      rel (f c s) (f c' s'))
    (hfailed : ∀ c ladder next s, rel (f c s) (f c (note (.failed ladder next) s).2))
    (hforce : ∀ c reason s, rel (f c s) (f c (it.force c reason s).2)) {μ μ' : R}
    {answer : Except Termination (Move R n)} {s' : Session σ R n}
    (h : it.run μ s = ((answer, μ'), s')) :
    ∃ c, μ' = c.mu ∧ rel (f (.start μ) s) (f c s') ∧
      ∀ move, answer = .ok move → move.reattempts = c.reattempts := by
  have hclimb {e : ClimbEnd R n} {c : Climb R n} {s₁ : Session σ R n}
      (hclimb : it.climbFrom (.start it.options.ladder it.engaged) (.start μ) s = ((e, c), s₁)) :
      rel (f (.start μ) s) (f c s₁) := by
    have hrel := rel_climbFrom hattempt hfailed (.start it.options.ladder it.engaged) (.start μ) s
    rwa [hclimb] at hrel
  have hforced {c : Climb R n} {s₁ : Session σ R n} {reason : Termination}
      (hmove : it.force c reason s₁ = (answer, s')) : rel (f c s₁) (f c s') := by
    have hrel := hforce c reason s₁
    rwa [hmove] at hrel
  rcases answer with reason | move
  · obtain ⟨c, hμ', hend | ⟨_, s₁, hend, ⟨-, rfl, -⟩ | ⟨-, hmove⟩⟩⟩ := run_eq_error h
    · exact ⟨c, hμ', hclimb hend, fun _ h ↦ nomatch h⟩
    · exact ⟨c, hμ', hclimb hend, fun _ h ↦ nomatch h⟩
    · exact ⟨c, hμ', trans_of rel (hclimb hend) (hforced hmove), fun _ h ↦ nomatch h⟩
  · obtain ⟨c, hμ', hend | ⟨_, reason, s₁, hend, -, hmove⟩⟩ := run_eq_ok h
    · obtain ⟨_, _, _, _, -, -, -, rfl⟩ :=
        exists_moved (P := fun _ ↦ True) (fun _ _ _ _ ↦ trivial) trivial hend
      refine ⟨c, hμ', hclimb hend, ?_⟩
      rintro move ⟨⟩
      rfl
    · refine ⟨c, hμ', trans_of rel (hclimb hend) (hforced hmove), ?_⟩
      rintro move ⟨⟩
      obtain ⟨_, -, ⟨_, -, rfl, -⟩ | ⟨-, _, _, -, rfl, -⟩⟩ := force_eq_ok hmove <;> rfl

/-- A step that was not forced was accepted by an attempt of the climb. -/
theorem exists_accepted {P : ClimbStage σ R n → Prop} {μ μ' : R}
    (hround : ∀ a b, it.climbRound a = .inl b → P a → P b)
    (hstart : P ⟨.start it.options.ladder it.engaged, it.reattempts.limit, .start μ, s⟩)
    {move : Move R n} {s' : Session σ R n} (hforced : move.forced = false)
    (h : it.run μ s = ((.ok move, μ'), s')) :
    ∃ a d s₁ out c, P a ∧ it.makeDirection a.ladder.level a.climb.mu a.session = (.ok d, s₁) ∧
      it.searchAlong a.climb d s₁ = ((.ok out, c), s') ∧ move = acceptedMove c d out ∧
      μ' = c.mu := by
  obtain ⟨c, hμ', hclimb | ⟨_, _, _, -, -, hforce⟩⟩ := run_eq_ok h
  · obtain ⟨a, d, s₁, out, ha, hd, hs, hmove⟩ := exists_moved hround hstart hclimb
    exact ⟨a, d, s₁, out, c, ha, hd, hs, hmove, hμ'⟩
  · exact absurd (hforced.symm.trans (forced_of_force_eq_ok hforce)) Bool.false_ne_true

/-- Steps are forced only if the options say so. -/
theorem forceMovement_of_forced {μ μ' : R} {move : Move R n} {s' : Session σ R n}
    (hforced : move.forced = true) (h : it.run μ s = ((.ok move, μ'), s')) :
    it.options.forceMovement = true := by
  obtain ⟨c, -, hclimb | ⟨_, _, _, -, hforce, -⟩⟩ := run_eq_ok h
  · obtain ⟨_, _, _, _, -, -, -, rfl⟩ :=
      exists_moved (P := fun _ ↦ True) (fun _ _ _ _ ↦ trivial) trivial hclimb
    cases hforced
  · exact hforce

end IterationContext

end ExactPenalty
