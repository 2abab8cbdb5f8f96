import ExactPenalty.Proofs.Attempts
import ExactPenalty.Proofs.InStep
import ExactPenalty.Proofs.Options
import ExactPenalty.Proofs.Run.Climb
import ExactPenalty.Proofs.Run.Session
import ExactPenalty.Proofs.Search.Refusals

/-!
# Iterations in step

Two runs may differ in their worlds, their budgets and what they measure, and still take the same
steps.  Here this is shown of one iteration: what is compared are two iteration contexts that are
alike in all that the steps depend on (`IterationContext.IsAlike`), and the iterations are in step as
long as none of them ends its run (`IterationContext.inStep_run`).

A budget is met in two places, inside a search and by a look-up for a forced step.  Both end the run,
so this is where an answer is cut off.  Quadratic programs matter only where steering is engaged, and
random numbers only where the random rung is permitted; so the sessions are related by their
generators, and only in that case (`SameDraws`).
-/

set_option autoImplicit false

namespace ExactPenalty

open Session ExactPenalty.Action

variable {σ τ R : Type} [Scalar R] {n : Nat}

/-! ## Options -/

/-- Two sets of options that make a run take the same steps: they differ at most in what is measured,
in when the run stops, and in the random numbers where the random rung is not permitted. -/
structure Options.SameCourse (o o' : Options R) : Prop where
  mu0 : o.mu0 = o'.mu0
  curvature : o.curvature = o'.curvature
  ladderMin : o.ladder.min = o'.ladder.min
  ladderMax : o.ladder.max = o'.ladder.max
  /-- The random numbers are the same if they are permitted at all. -/
  random : 3 < o.ladder.max →
    o.seed = o'.seed ∧ o.ladder.maxRandomAttempts = o'.ladder.maxRandomAttempts
  steering : o.steering = o'.steering
  conditioning : o.conditioning = o'.conditioning
  search : o.search = o'.search
  reattempts : o.reattempts = o'.reattempts
  firstReattempts : o.firstReattempts = o'.firstReattempts
  forceMovement : o.forceMovement = o'.forceMovement

/-! ## Searches -/

/-- **Searches are in step if their look-ups are**: a search is cut off only if one of its look-ups is,
and that is stopped. -/
theorem inStep_lineSearch {rel : σ → τ → Prop} {ask : Oracle σ R n} {ask' : Oracle τ R n}
    {cut : Lookup R n → Prop} {cut' : SearchResult R n → Prop}
    (hask : ∀ x, InStep rel cut (ask x) (ask' x))
    (hcut : ∀ answer, cut answer →
      answer = .stopped ∧ ∀ result : SearchResult R n, result.IsStopped → cut' result)
    (task : SearchTask R n) (o : SearchOptions R) :
    InStep rel cut' (lineSearch ask task o) (lineSearch ask' task o) := fun _ _ ↦
  together_lineSearch
    (fun x s t hrel ↦ by
      rcases hask x s t hrel with hstopped | hstopped | ⟨hanswer, hrel'⟩
      · exact .inl ⟨_, Prod.ext (hcut _ hstopped).1 rfl, fun r _ h ↦ .inl ((hcut _ hstopped).2 r h)⟩
      · exact .inr (.inl ⟨_, Prod.ext (hcut _ hstopped).1 rfl,
          fun _ r h ↦ .inr (.inl ((hcut _ hstopped).2 r h))⟩)
      · exact .inr (.inr ⟨.inl hanswer, hrel'⟩))
    fun _ _ _ hrel ↦ .inr (.inr ⟨rfl, hrel⟩)

/-! ## Directions -/

section Directions

variable {solve : QpService σ R} {solve' : QpService τ R}

theorem SteeringOutcome.agree_firstAdequate {c : R}
    {attempt : (shrinks : Nat) → (μ : R) → ExceptT QpError (StateM σ) (SteeringOutcome R n)}
    {attempt' : (shrinks : Nat) → (μ : R) → ExceptT QpError (StateM τ) (SteeringOutcome R n)}
    (hattempt : ∀ k μ, Agree (attempt k μ).run (attempt' k μ).run) (left shrinks : Nat) (μ : R)
    (best : Option (SteeringOutcome R n)) :
    Agree (firstAdequate c attempt left shrinks μ best).run
      (firstAdequate c attempt' left shrinks μ best).run := by
  induction left generalizing shrinks μ best with
  | zero => cases best <;> exact .pure _
  | succ left ih =>
    rw [firstAdequate, firstAdequate]
    refine .run_bind (hattempt _ _) fun next ↦ ?_
    split_ifs
    · exact .pure _
    · exact ih _ _ _

/-- Steering depends on the answers of the service only. -/
theorem agree_steer (hsolve : ∀ {m : Nat} (qp : QuadraticProgram R m), Agree (solve qp) (solve' qp))
    (options : SteeringOptions R) (o : Observation R n) (h : Mat R n n) (μ : R) :
    Agree (steer solve options o h μ).run (steer solve' options o h μ).run := by
  have hdirection (ν : R) : Agree ((o.steeringModel h).direction solve ν).run
      ((o.steeringModel h).direction solve' ν).run := by
    rw [SteeringModel.direction, SteeringModel.direction]
    refine .run_bind (hsolve _) fun y ↦ ?_
    dsimp only
    split_ifs
    · exact .pure _
    · exact .pure _
  rw [steer, steer]
  refine .run_bind (hdirection 0) fun reference ↦ ?_
  refine SteeringOutcome.agree_firstAdequate (fun k ν ↦ ?_) _ _ _ _
  exact .run_bind (hdirection ν) fun d ↦ .pure _

namespace DirectionContext

/-- The proposal of a rung depends on the answers of the service where steering is engaged, and on the
random numbers where they are drawn. -/
theorem fst_propose_eq (ctx : DirectionContext R n)
    (hsolve : (∀ {m : Nat} (qp : QuadraticProgram R m), Agree (solve qp) (solve' qp)) ∨
      ctx.engaged = false)
    (options : SteeringOptions R) {level : Level} (μ : R) {g g' : Generator}
    (hg : level = .random → g = g') (s : σ) (t : τ) :
    (ctx.propose solve options level μ g s).1.1
      = (ctx.propose solve' options level μ g' t).1.1 := by
  have hsteered (h : Mat R n n) (hengaged : ctx.engaged = true) :
      (ctx.steered solve options h μ s).1 = (ctx.steered solve' options h μ t).1 := by
    rcases hsolve with hsolve | hnot
    · exact congrArg (Except.map _) (agree_steer hsolve options ctx.observation h μ s t)
    · exact absurd (hengaged.symm.trans hnot) Bool.true_eq_false_eq_False
  rw [propose.eq_def, propose.eq_def]
  cases level with
  | steering =>
    cases hengaged : ctx.engaged with
    | true => exact hsteered ctx.conditioned hengaged
    | false => rfl
  | steeringIdentity =>
    cases hengaged : ctx.engaged with
    | true => exact hsteered (.identity R n) hengaged
    | false => rfl
  | quasiNewton => rfl
  | steepestDescent => rfl
  | random =>
    cases hg rfl
    rfl

/-- An attempt judges alike where the searches are set alike. -/
theorem concluded_eq (ctx : DirectionContext R n) {options options' : Options R}
    (hsearch : options.search = options'.search) (level : Level)
    (proposal : Except QpError (Proposal R n)) :
    ctx.concluded options level proposal = ctx.concluded options' level proposal := by
  cases proposal with
  | error e => rfl
  | ok p => rw [concluded, concluded, hsearch]

end DirectionContext

end Directions

/-! ## Ladders -/

/-- The ladders agree, but for the number of random directions where those are not permitted. -/
structure Ladder.IsAlike (max : Nat) (l l' : Ladder) : Prop where
  within : l.IsWithin max
  eq : ∃ limit, l' = { l with maxRandomAttempts := limit } ∧
    (3 < max → limit = l.maxRandomAttempts)

namespace Ladder.IsAlike

variable {max : Nat} {l l' : Ladder}

theorem level_eq (h : l.IsAlike max l') : l'.level = l.level := by
  obtain ⟨limit, rfl, -⟩ := h.eq
  rfl

/-- Either the ladders are the same, or they are below the random rung. -/
theorem cases (h : l.IsAlike max l') : l' = l ∨ l.level ≠ .random := by
  obtain ⟨limit, rfl, hlimit⟩ := h.eq
  by_cases hmax : 3 < max
  · exact .inl (by rw [hlimit hmax])
  · exact .inr (h.within.ne_random (by omega))

theorem next_eq (h : l.IsAlike max l') : l'.next = l.next := by
  rcases h.cases with rfl | hlevel
  · rfl
  · obtain ⟨limit, rfl, -⟩ := h.eq
    exact next_maxRandomAttempts hlevel limit

theorem climb (h : l.IsAlike max l') (hnext : l.next ≠ .exhausted) :
    l.climb.2.IsAlike max l'.climb.2 := by
  refine ⟨h.within.climb hnext, ?_⟩
  have hkept : l.climb.2.maxRandomAttempts = l.maxRandomAttempts := by
    show (l.after l.next).maxRandomAttempts = _
    cases l.next <;> rfl
  rcases h.cases with rfl | hlevel
  · exact ⟨_, rfl, fun _ ↦ rfl⟩
  · obtain ⟨limit, rfl, hlimit⟩ := h.eq
    exact ⟨limit, climb_maxRandomAttempts hlevel limit, fun hmax ↦ (hlimit hmax).trans hkept.symm⟩

theorem start {o o' : LadderOptions} (hmin : o.min = o'.min) (hmax : o.max = o'.max)
    (hrandom : 3 < o.max → o.maxRandomAttempts = o'.maxRandomAttempts) (hle : o.min ≤ o.max)
    (hle' : o.max ≤ 4) (engaged : Bool) :
    (Ladder.start o engaged).IsAlike o.max (Ladder.start o' engaged) := by
  refine ⟨isWithin_start hle hle' engaged, o'.maxRandomAttempts, ?_, fun h ↦ (hrandom h).symm⟩
  rw [Ladder.start, Ladder.start, hmin, hmax]

end Ladder.IsAlike

/-! ## Iterations -/

/-- The sessions will draw the same random numbers, if they may draw any: the random rung is the one
above the third. -/
def SameDraws (max : Nat) (s : Session σ R n) (t : Session τ R n) : Prop :=
  3 < max → s.generator = t.generator

omit [Scalar R] in
theorem inStep_note {max : Nat} {cut : Unit → Prop} (e e' : Event R n) :
    InStep (SameDraws max) cut (note e : SessionM σ R n Unit) (note e' : SessionM τ R n Unit) :=
  fun _ _ h ↦ .inr (.inr ⟨rfl, h⟩)

/-- Two iterations are alike in all that their steps depend on. -/
structure IterationContext.IsAlike (it : IterationContext σ R n) (it' : IterationContext τ R n) :
    Prop where
  evaluate : ∀ x, Agree (it.env.evaluate x) (it'.env.evaluate x)
  /-- Quadratic programs have the same answers, or steering asks for none. -/
  solve : (∀ {m : Nat} (qp : QuadraticProgram R m), Agree (it.env.solve qp) (it'.env.solve qp)) ∨
    it.engaged = false
  shape : it.shape = it'.shape
  course : it.options.SameCourse it'.options
  direction : it.toDirectionContext = it'.toDirectionContext
  reattempts : it.reattempts = it'.reattempts

/-- Two climbs are about to make the same attempt. -/
structure ClimbStage.IsAlike (max : Nat) (a : ClimbStage σ R n) (b : ClimbStage τ R n) : Prop where
  ladder : a.ladder.IsAlike max b.ladder
  left : a.left = b.left
  climb : a.climb = b.climb
  session : SameDraws max a.session b.session

/-- The climb has met the end of the budget. -/
def ClimbEnd.IsStopped (e : ClimbEnd R n) : Prop := ∃ reason, e = .stopped reason

namespace IterationContext.IsAlike

variable {it : IterationContext σ R n} {it' : IterationContext τ R n} (h : it.IsAlike it')
include h

/-- A look-up that is not stopped depends on the answer of the problem only. -/
theorem inStep_lookUp (x : Vector R n) :
    InStep (SameDraws it.options.ladder.max) (· = .stopped) (it.lookUp x) (it'.lookUp x) := by
  intro s t hdraws
  rcases it.lookUp_cases x s with ⟨hs, -⟩ | ⟨hs, -, -⟩
  · exact .inl (congrArg Prod.fst hs)
  rcases it'.lookUp_cases x t with ⟨ht, -⟩ | ⟨ht, -, -⟩
  · exact .inr (.inl (congrArg Prod.fst ht))
  refine .inr (.inr ⟨?_, fun hmax ↦ ?_⟩)
  · rw [RunContext.fst_lookUp hs, RunContext.fst_lookUp ht, h.evaluate x s.world t.world, h.shape]
  · rw [RunContext.generator_lookUp, RunContext.generator_lookUp]
    exact hdraws hmax

theorem inStep_makeDirection {level : Level} (hlevel : level = .random → 3 < it.options.ladder.max)
    (μ : R) : InStep (SameDraws it.options.ladder.max) (fun _ ↦ False) (it.makeDirection level μ)
      (it'.makeDirection level μ) := by
  intro s t hdraws
  refine .inr (.inr ⟨?_, fun hmax ↦ ?_⟩)
  · have hproposal := it.toDirectionContext.fst_propose_eq h.solve it.options.steering μ
      (fun hrandom ↦ hdraws (hlevel hrandom)) s.world t.world
    rw [fst_makeDirection, fst_makeDirection, DirectionContext.attempt_apply,
      DirectionContext.attempt_apply, ← h.direction, ← h.course.steering, ← hproposal,
      it.toDirectionContext.concluded_eq h.course.search]
  · show (it.toDirectionContext.attempt it.env.solve it.options level μ s.generator s.world).1.2
      = (it'.toDirectionContext.attempt it'.env.solve it'.options level μ t.generator t.world).1.2
    rw [DirectionContext.attempt_apply, DirectionContext.attempt_apply,
      DirectionContext.generator_propose, DirectionContext.generator_propose, hdraws hmax]

theorem inStep_searchAlong (c : Climb R n) (d : Direction R n) :
    InStep (SameDraws it.options.ladder.max) (fun r ↦ r.1.IsStopped) (it.searchAlong c d)
      (it'.searchAlong c d) := by
  have hsearch (task : SearchTask R n) :
      InStep (SameDraws it.options.ladder.max) SearchResult.IsStopped
        (lineSearch it.lookUp task it.options.search)
        (lineSearch it'.lookUp task it.options.search) :=
    inStep_lineSearch h.inStep_lookUp (fun _ hstopped ↦ ⟨hstopped, fun _ ↦ id⟩) task it.options.search
  rw [searchAlong, searchAlong, ← h.direction, ← h.course.search]
  dsimp only
  split
  · refine .bind_of_false (inStep_note _ _) fun _ ↦ .bind (hsearch _) (fun r hr ↦ ?_) fun r ↦ ?_
    · exact ⟨fun _ ↦ hr, fun _ ↦ hr⟩
    · exact .bind_of_false (inStep_note _ _) fun _ ↦ .pure _
  · refine .bind (hsearch _) (fun r hr ↦ ?_) fun r ↦ ?_
    · exact ⟨fun _ ↦ hr, fun _ ↦ hr⟩
    · exact .bind_of_false (inStep_note _ _) fun _ ↦ .pure _

theorem inStep_tryOnce {level : Level} (hlevel : level = .random → 3 < it.options.ladder.max)
    (left : Nat) (c : Climb R n) :
    InStep (SameDraws it.options.ladder.max) (fun r ↦ ∃ e, r.1 = some e ∧ e.IsStopped)
      (it.tryOnce level left c) (it'.tryOnce level left c) := by
  rw [tryOnce, tryOnce]
  refine .bind_of_false (h.inStep_makeDirection hlevel c.mu) fun attempt ↦ ?_
  rcases attempt with (e | d | _) | d
  · exact .pure _
  · exact .pure _
  · exact .pure _
  refine .bind (h.inStep_searchAlong c d) ?_ fun answer ↦ ?_
  · rintro ⟨r, c'⟩ ⟨e, rfl, hreason⟩
    dsimp only
    rw [hreason]
    exact ⟨fun s ↦ ⟨_, rfl, _, rfl⟩, fun t ↦ ⟨_, rfl, _, rfl⟩⟩
  rcases answer with ⟨e | out, c'⟩
  · dsimp only
    cases e.reason with
    | notBracketed t =>
      dsimp only
      rw [← h.direction, ← h.reattempts]
      split_ifs
      · exact .bind_of_false (inStep_note _ _) fun _ ↦ .pure _
      · exact .pure _
    | wolfeNotSatisfied l u => exact .pure _
    | armijoNotSatisfied => exact .pure _
    | nonDescent => exact .pure _
    | budgetExhausted => exact .of_cut fun s ↦ ⟨_, rfl, _, rfl⟩
  · exact .pure _

/-- Rounds of two climbs are in step. -/
theorem together_climbRound (a : ClimbStage σ R n) (b : ClimbStage τ R n)
    (hab : a.IsAlike it.options.ladder.max b) :
    Together (ClimbStage.IsAlike it.options.ladder.max)
      (Matches (SameDraws it.options.ladder.max) fun r ↦ r.1.IsStopped) (it.climbRound a)
      (it'.climbRound b) := by
  have hlevel : a.ladder.level = .random → 3 < it.options.ladder.max := by
    intro hrandom
    have hindex := hab.ladder.within.index_le
    rw [hrandom] at hindex
    exact hindex
  have hmatch := h.inStep_tryOnce hlevel a.left a.climb a.session b.session hab.session
  -- the ladders themselves may differ below the random rung, their rungs and transitions do not
  rw [climbRound, climbRound, hab.ladder.level_eq, hab.ladder.next_eq, ← hab.left, ← hab.climb]
  rcases ha : it.tryOnce a.ladder.level a.left a.climb a.session with ⟨⟨e, c⟩, s⟩
  rcases hb : it'.tryOnce a.ladder.level a.left a.climb b.session with ⟨⟨e', c'⟩, t⟩
  rw [ha, hb] at hmatch
  obtain ⟨_, rfl, reason, rfl⟩ | ⟨_, rfl, reason, rfl⟩ | ⟨hanswer, hdraws⟩ := hmatch
  · exact .of_left (fun _ ↦ .inl ⟨reason, rfl⟩) _
  · exact .of_right (fun _ ↦ .inr (.inl ⟨reason, rfl⟩)) _
  cases hanswer
  rcases e with _ | move | failure | reason
  · exact .next ⟨hab.ladder, rfl, rfl, hdraws⟩
  · exact .done (.inr (.inr ⟨rfl, hdraws⟩))
  · dsimp only
    split_ifs with hnext
    · exact .done (.inr (.inr ⟨rfl, hdraws⟩))
    · exact .next ⟨hab.ladder.climb hnext, congrArg (·.limit) h.reattempts, rfl, hdraws⟩
  · exact .done (.inr (.inr ⟨rfl, hdraws⟩))

theorem inStep_climbFrom {ladder ladder' : Ladder}
    (hladder : ladder.IsAlike it.options.ladder.max ladder') (c : Climb R n) :
    InStep (SameDraws it.options.ladder.max) (fun r ↦ r.1.IsStopped) (it.climbFrom ladder c)
      (it'.climbFrom ladder' c) := fun s t hdraws ↦
  Ends.together h.together_climbRound (it.ends_climbFrom ladder c s)
    (it'.ends_climbFrom ladder' c t) ⟨hladder, congrArg (·.limit) h.reattempts, rfl, hdraws⟩

/-- Forced steps are in step, whatever reasons the runs would end for. -/
theorem inStep_force (c : Climb R n) (reason reason' : Termination) :
    InStep (SameDraws it.options.ladder.max) (fun r ↦ ∃ e, r = .error e) (it.force c reason)
      (it'.force c reason') := by
  rw [force, force, ← h.direction, ← h.course.search]
  cases c.lastDirection with
  | none => exact .of_cut fun _ ↦ ⟨_, rfl⟩
  | some d =>
    dsimp only
    cases c.lastTrial with
    | some trial => exact .bind_of_false (inStep_note _ _) fun _ ↦ .pure _
    | none =>
      dsimp only
      refine .bind (h.inStep_lookUp _) ?_ fun answer ↦ ?_
      · rintro _ rfl
        exact ⟨fun _ ↦ ⟨_, rfl⟩, fun _ ↦ ⟨_, rfl⟩⟩
      · cases answer with
        | evaluated o => exact .bind_of_false (inStep_note _ _) fun _ ↦ .pure _
        | rejected => exact .of_cut fun _ ↦ ⟨_, rfl⟩
        | stopped => exact .of_cut fun _ ↦ ⟨_, rfl⟩

/-- **Iterations that are alike are in step**, until one of them makes no step. -/
theorem inStep_run (hoptions : it.options.IsValid) (μ : R) :
    InStep (SameDraws it.options.ladder.max) (fun r ↦ ∃ reason, r.1 = .error reason) (it.run μ)
      (it'.run μ) := by
  have hladder := Ladder.IsAlike.start h.course.ladderMin h.course.ladderMax
    (fun hmax ↦ (h.course.random hmax).2) hoptions.ladderMin_le_max hoptions.ladderMax_le it.engaged
  rw [run, run, ← h.direction, ← h.course.forceMovement]
  refine .bind (h.inStep_climbFrom hladder (.start μ)) ?_ fun answer ↦ ?_
  · rintro ⟨_, c⟩ ⟨reason, rfl⟩
    exact ⟨fun _ ↦ ⟨reason, rfl⟩, fun _ ↦ ⟨reason, rfl⟩⟩
  rcases answer with ⟨move | failure | reason, c⟩
  · exact .pure _
  · dsimp only
    split_ifs
    · refine .bind (h.inStep_force c _ _) ?_ fun answer ↦ .pure _
      rintro _ ⟨reason, rfl⟩
      exact ⟨fun _ ↦ ⟨reason, rfl⟩, fun _ ↦ ⟨reason, rfl⟩⟩
    · exact .of_cut fun _ ↦ ⟨_, rfl⟩
  · exact .of_cut fun _ ↦ ⟨_, rfl⟩

end IterationContext.IsAlike

end ExactPenalty
