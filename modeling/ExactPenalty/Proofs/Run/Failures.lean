import ExactPenalty.Proofs.Run.Endings
import ExactPenalty.Proofs.Run.LastDirection
import ExactPenalty.Proofs.Run.PenaltyHistory
import ExactPenalty.Proofs.Run.Stationary

/-!
# What a failure code tells

A run that ends because every rung has failed gives a code for it, and the code is about the last rung
of the last iteration.  `RunContext.exists_failure` reads off the transcript what it says.

Before such a run ends, a step may be forced along the last direction that was computed, and the code is
then given only if that cannot be done.  Which direction that is, and whether any trial along it could
be kept, is told by the events of the climb (`Climb.IsTold`).  `Unforced` says what it comes to at the
end.

Conversely, an iteration on the steering rungs alone does fail with a solver that never has an answer
(`IterationContext.run_of_failsOnBoxes`).
-/

set_option autoImplicit false

namespace ExactPenalty

open Session ExactPenalty.Action

variable {σ R : Type} [Scalar R] {n : Nat}

/-! ## Directions in the transcript -/

/-- No answer among the events was of use to the search along a direction that is among them. -/
def NoUse (shape : Nat × Nat) (d : Direction R n) (events : List (Event R n)) : Prop :=
  ∀ x answer, .evaluated x answer ∈ events → ∃ task result, .searched task result ∈ events ∧
    task.direction = d.vector ∧ ¬ answer.IsUsable shape x task.mu

/-- What the events of a climb tell of its last direction: no direction was computed after it, and if no
trial along it was kept, then none was of use. -/
def Climb.IsTold (shape : Nat × Nat) (c : Climb R n) (events : List (Event R n)) : Prop :=
  match c.lastDirection with
  | none => ∀ e ∈ events, e.direction? = none
  | some d => ∃ earlier attempt later, events = earlier ++ .attempted attempt :: later ∧
      attempt.direction? = some d ∧ (∀ e ∈ later, e.direction? = none) ∧
      (c.lastTrial = none → NoUse shape d later)

variable {shape : Nat × Nat} {c c' : Climb R n} {d : Direction R n} {events more : List (Event R n)}

/-- What is known of the last direction tells this of a climb that remembers it. -/
theorem LastDirection.isTold {x : Vector R n} {o : SearchOptions R} {trials : List (Trial R n)}
    (h : LastDirection shape x o c.lastDirection trials events)
    (htrial : c.lastTrial = trials.foldl Trial.keepLower Option.none) : c.IsTold shape events := by
  rw [Climb.IsTold]
  generalize c.lastDirection = last at h
  cases h with
  | none hnone => exact hnone
  | @refused earlier d attempt rest hresult hrest =>
    refine ⟨earlier, attempt, rest, rfl, by rw [DirectionAttempt.direction?, hresult],
      fun e he ↦ (hrest e he).1, fun _ x answer he ↦ ?_⟩
    exact absurd (hrest _ he).2 (by simp [Event.isEvaluated])
  | @searched earlier d attempt task error _ lookups rest hresult hstart hdirection htrials hrest =>
    refine ⟨earlier, attempt, lookups ++ .searched task (.error error) :: rest, by simp,
      by rw [DirectionAttempt.direction?, hresult], ?_, fun hnone x answer he ↦ ?_⟩
    · refine List.forall_mem_append.2 ⟨fun e he ↦ Event.direction?_of_isTrial (htrials.isTrial e he), ?_⟩
      exact List.forall_mem_cons.2 ⟨rfl, fun e he ↦ (hrest e he).1⟩
    · have hlookup : .evaluated x answer ∈ lookups := by
        rcases List.mem_append.1 he with he | he
        · exact he
        · rcases List.mem_cons.1 he with he | he
          · cases he
          · exact absurd (hrest _ he).2 (by simp [Event.isEvaluated])
      refine ⟨task, .error error, List.mem_append_right _ List.mem_cons_self, hdirection, ?_⟩
      have hunusable := Trial.foldl_keepLower_eq_none_iff.1 (htrial.symm.trans hnone)
      have hnot := htrials.not_isUsable hunusable hlookup
      rwa [SearchTask.mu_forSearch] at hnot

/-! ## Nothing to force -/

/-- The events of an iteration in which no step could be forced: no direction was computed at all, or
there is a last one, no answer along it was of use to its search, and the answer at its first step was
rejected. -/
inductive Unforced (shape : Nat × Nat) (x : Vector R n) (step : R) : List (Event R n) → Prop where
  | noDirection {events : List (Event R n)} : (∀ e ∈ events, e.direction? = none) →
      Unforced shape x step events
  | rejected {earlier trials rest : List (Event R n)} {attempt : DirectionAttempt R n}
      {d : Direction R n} {answer : Evaluation R} : attempt.direction? = some d →
      (∀ e ∈ trials ++ rest, e.direction? = none) → NoUse shape d trials →
      answer.screened shape (Linear.along x d.vector step) = .rejected →
      (∀ e ∈ rest, e.isEvaluated = false) →
      Unforced shape x step (earlier ++ .attempted attempt :: trials
        ++ .evaluated (Linear.along x d.vector step) answer :: rest)

theorem Unforced.append {x : Vector R n} {step : R} (h : Unforced shape x step events)
    (hmore : ∀ e ∈ more, e.IsQuiet) : Unforced shape x step (events ++ more) := by
  cases h with
  | noDirection hnone =>
    exact .noDirection (List.forall_mem_append.2 ⟨hnone, fun e he ↦ (hmore e he).1⟩)
  | @rejected earlier trials rest attempt d answer hd hnone huse hrejected hrest =>
    have happend : Unforced shape x step (earlier ++ .attempted attempt :: trials
        ++ .evaluated (Linear.along x d.vector step) answer :: (rest ++ more)) := by
      refine .rejected hd ?_ huse hrejected ?_
      · rw [← List.append_assoc]
        exact List.forall_mem_append.2 ⟨hnone, fun e he ↦ (hmore e he).1⟩
      · exact List.forall_mem_append.2 ⟨hrest, fun e he ↦ (hmore e he).2⟩
    simpa using happend

/-- Where no step could be forced for the reason that the climb had failed. -/
theorem IterationContext.unforced_of_force_eq_error {it : IterationContext σ R n}
    {s₀ s s' : Session σ R n} {reason reason' : Termination} (hc : it.Tells s₀ c s)
    (h : it.force c reason s = (.error reason', s')) (htotal : reason'.isTotalFailure = true) :
    ∃ events, s'.transcript.toList = s₀.transcript.toList ++ events ∧
      Unforced it.shape it.observation.point it.options.search.initialStep events := by
  obtain ⟨events, trials, hevents, hlast, htrial⟩ := hc
  have htold := hlast.isTold htrial
  rw [Climb.IsTold] at htold
  rcases force_eq_error h with ⟨-, hlast, rfl⟩ |
    ⟨d, answer, hlast, htrial, hlook, ⟨rfl, -⟩ | ⟨rfl, rfl⟩⟩ <;> rw [hlast] at htold
  · refine ⟨events ++ [.nothingToForce], ?_,
      (Unforced.noDirection htold).append (List.forall_mem_singleton.2 ⟨rfl, rfl⟩)⟩
    rw [toList_note, hevents, List.append_assoc]
  · obtain ⟨earlier, attempt, later, rfl, hd, hlater, huse⟩ := htold
    obtain ⟨hstopped, -⟩ | ⟨given, hrejected, hsession⟩ := RunContext.exists_answer_of_lookUp hlook
    · cases hstopped
    have hunforced : Unforced it.shape it.observation.point it.options.search.initialStep
        (earlier ++ .attempted attempt :: later ++ .evaluated (Linear.along it.observation.point
          d.vector it.options.search.initialStep) given :: []) := by
      refine .rejected hd ?_ (huse htrial) hrejected.symm (List.forall_mem_nil _)
      rwa [List.append_nil]
    rcases hsession with hsession | hsession
    · exact ⟨_, by rw [hsession, hevents, List.append_assoc], hunforced⟩
    · have hquiet : ∀ e ∈ [(.misshapen : Event R n)], e.IsQuiet :=
        List.forall_mem_singleton.2 ⟨rfl, rfl⟩
      refine ⟨_, ?_, hunforced.append hquiet⟩
      rw [hsession, hevents]
      simp
  · rcases RunContext.exhausted?_eq_some (RunContext.exhausted?_of_lookUp_stopped hlook) with
      hreason | ⟨hreason, -⟩ <;> rw [hreason] at htotal <;> cases htotal

/-! ## An iteration that fails -/

omit [Scalar R] in
theorem ClimbFailure.ShownBy.exists_searched {cause : Event R n}
    (h : ClimbFailure.unacceptable.ShownBy cause) :
    ∃ task e, cause = .searched task (.error e) ∧
      ((∃ l u, e.reason = .wolfeNotSatisfied l u) ∨ e.reason = .armijoNotSatisfied) := by
  cases cause with
  | searched task result =>
    cases result with
    | error e => exact ⟨task, e, rfl, h⟩
    | ok out => exact h.elim
  | _ => exact h.elim

/-- The failure that a code is reported for. -/
def Termination.failure? : Termination → Option ClimbFailure
  | qpFailure => some .qp
  | noDescentDirection => some .noDescent
  | lineSearchUnbounded => some .unbounded
  | lineSearchFailedFeasible | lineSearchFailedInfeasible => some .unacceptable
  | _ => none

theorem ClimbFailure.failure?_termination (failure : ClimbFailure) (feasible : Bool) :
    (failure.termination feasible).failure? = some failure := by
  cases failure with
  | unacceptable => cases feasible <;> rfl
  | qp => rfl
  | noDescent => rfl
  | unbounded => rfl

/-- A forced step notes no failure of a rung. -/
theorem IterationContext.not_failed_of_force (it : IterationContext σ R n) (c : Climb R n)
    (reason : Termination) :
    Leads (Session.Continues fun e ↦ e.isFailed = false) (it.force c reason) := by
  have hlookUp {x : Vector R n} :
      Leads (Session.Continues fun e ↦ e.isFailed = false) (it.lookUp x) :=
    it.continues_lookUp (P := fun e ↦ e.isFailed = false) (fun _ ↦ rfl) rfl
  exact it.leads_force_of (.note rfl) (fun _ _ ↦ .note rfl) (fun _ ↦ hlookUp) c reason

/-- **Why an iteration fails**, in terms of its events. -/
theorem IterationContext.exists_failure {it : IterationContext σ R n} {μ μ' : R}
    {s s' : Session σ R n} {reason : Termination} (hoptions : it.options.IsValid)
    (h : it.run μ s = ((.error reason, μ'), s')) (htotal : reason.isTotalFailure = true) :
    ∃ (failure : ClimbFailure) (events rung : List (Event R n)) (cause : Event R n),
      reason = failure.termination (it.observation.isFeasible it.options.stopping.ineqTol
        it.options.stopping.eqTol) ∧
      s'.transcript.toList = s.transcript.toList ++ events ∧
      IsLastRung rung events ∧ rung.getLast? = some cause ∧ failure.ShownBy cause ∧
      (failure = .qp → it.engaged = true ∧ it.options.ladder.max ≤ 1) ∧
      (failure = .unbounded → it.options.search.backtracking = false ∧
        (it.observation.isConstrained = true →
          rung.countP (·.isReattempted) = it.reattempts.limit)) ∧
      (it.options.forceMovement = true →
        Unforced it.shape it.observation.point it.options.search.initialStep events) := by
  have hlimit {s : Session σ R n} (hstopped : it.exhausted? s = some reason) : False := by
    rcases RunContext.exhausted?_eq_some hstopped with rfl | ⟨rfl, -⟩ <;> cases htotal
  obtain ⟨c, -, hclimb | ⟨failure, s₁, hclimb, hended⟩⟩ := run_eq_error h
  · exact (hlimit (exhausted?_of_climbFrom_stopped hclimb)).elim
  obtain ⟨events, rung, cause, hevents, hlast, hcause, hshown, hqp, hunbounded⟩ :=
    exists_lastRung hoptions hclimb
  rcases hended with ⟨hoff, rfl, hreason⟩ | ⟨-, hforce⟩
  · refine ⟨failure, events, rung, cause, hreason, hevents, hlast, hcause, hshown, hqp, hunbounded,
      fun hon ↦ ?_⟩
    exact absurd (hoff.symm.trans hon) Bool.false_ne_true
  · obtain ⟨events', hevents', hunforced⟩ :=
      unforced_of_force_eq_error (tells_climbFrom hclimb) hforce htotal
    obtain ⟨more, hmore, hfailed⟩ : Session.Continues (fun e ↦ e.isFailed = false) s₁ s' := by
      have hcontinues := it.not_failed_of_force c (failure.termination
        (it.observation.isFeasible it.options.stopping.ineqTol it.options.stopping.eqTol)) s₁
      rwa [hforce] at hcontinues
    -- both say what was noted since the climb began, so the forced step only adds to the climb
    have hsame : events' = events ++ more := by
      rw [hevents, List.append_assoc] at hmore
      exact List.append_cancel_left (hevents'.symm.trans hmore)
    have hreason : reason = failure.termination (it.observation.isFeasible
        it.options.stopping.ineqTol it.options.stopping.eqTol) := by
      rcases force_eq_error hforce with
        ⟨hreason, -, -⟩ | ⟨_, _, -, -, hlook, ⟨-, hreason⟩ | ⟨rfl, hreason⟩⟩
      · exact hreason
      · exact hreason
      · exact (hlimit (hreason ▸ RunContext.exhausted?_of_lookUp_stopped hlook)).elim
    subst hsame
    exact ⟨failure, events ++ more, rung, cause, hreason, hevents', hlast.append hfailed, hcause,
      hshown, hqp, hunbounded, fun _ ↦ hunforced⟩

/-- **Why a run fails**, in terms of the events of its last iteration. -/
theorem RunContext.exists_failure {run : RunContext σ R n} {a : Stage σ R n} {r : RunResult R n}
    {s : Session σ R n} (hoptions : run.options.IsValid) (h : run.iterateOnce a = .inr (r, s))
    (htotal : r.termination.isTotalFailure = true) :
    ∃ (failure : ClimbFailure) (events rung : List (Event R n)) (cause : Event R n),
      r.termination = failure.termination (r.final.isFeasible run.options.stopping.ineqTol
        run.options.stopping.eqTol) ∧
      s.transcript.toList = (run.entered a).transcript.toList ++ events ∧
      IsLastRung rung events ∧ rung.getLast? = some cause ∧ failure.ShownBy cause ∧
      (failure = .qp → isEngaged r.final.toObservation run.options.steering.ineqMargin = true ∧
        run.options.ladder.max ≤ 1) ∧
      (failure = .unbounded → run.options.search.backtracking = false ∧
        (r.final.isConstrained = true → rung.countP (·.isReattempted)
          = if r.iterations = 0 then run.options.firstReattempts.limit
            else run.options.reattempts.limit)) ∧
      (run.options.forceMovement = true →
        Unforced run.shape r.final.point run.options.search.initialStep events) := by
  obtain ⟨-, -, -, s', hrun, hr⟩ := exists_run_of_isTotalFailure h htotal
  obtain ⟨hiterations, -, -, hfinal, -⟩ := result_of_iterateOnce h
  obtain ⟨failure, events, rung, cause, hreason, hevents, hlast, hcause, hshown, hqp, hunbounded,
    hunforced⟩ := IterationContext.exists_failure hoptions hrun htotal
  let ended : Event R n := .ended r.termination s'.evaluations (run.record a)
    (a.progress.current.reweighed r.final.mu)
  have hended : s.transcript.toList = s'.transcript.toList ++ [ended] :=
    (congrArg (·.2.transcript.toList) hr).trans Array.toList_push
  rw [hfinal, hiterations]
  refine ⟨failure, events ++ [ended], rung, cause, hreason, ?_,
    hlast.append (List.forall_mem_singleton.2 rfl), hcause, hshown, hqp, fun h ↦ ?_,
    fun h ↦ (hunforced h).append (List.forall_mem_singleton.2 ⟨rfl, rfl⟩)⟩
  · rw [hended, hevents, List.append_assoc]
  · obtain ⟨hback, hcount⟩ := hunbounded h
    exact ⟨hback, fun hconstrained ↦ (hcount hconstrained).trans
      (apply_ite ReattemptOptions.limit _ _ _)⟩

/-! ## Programs without answers -/

namespace IterationContext

variable {it : IterationContext σ R n} {level : Level} {left : Nat} {μ : R} {s s' : Session σ R n}

theorem attempted_of_failsOnBoxes (hsolve : QpService.FailsOnBoxes it.env.solve)
    (hengaged : it.engaged = true) (hlevel : level.usesSteering = true) {e : Option (ClimbEnd R n)}
    (h : it.Attempted level left c s e c' s') : e = some (.failed .qp) ∧ c' = c := by
  have hfails {result : Except (DirectionError R n) (Direction R n)} {s₁ : Session σ R n}
      (hd : it.makeDirection level c.mu s = (result, s₁)) : ∃ cause, result = .error (.qp cause) := by
    obtain ⟨cause, _, _, -, hattempt⟩ := DirectionContext.attempt_of_failsOnBoxes hsolve hengaged hlevel
      it.options c.mu s.generator s.world
    have hresult : (it.makeDirection level c.mu s).1 = .error (.qp cause) :=
      congrArg (·.1.1.result) hattempt
    rw [hd] at hresult
    exact ⟨cause, hresult⟩
  cases h with
  | qp => exact ⟨rfl, rfl⟩
  | nonDescent hd | degenerate hd | moved hd | stopped hd | ascending hd | unacceptable hd
  | unbounded hd | again hd =>
    obtain ⟨cause, h⟩ := hfails hd
    cases h

/-- Conversely, where steering is engaged and nothing else is permitted, an iteration fails with a
solver that never has an answer to a program over a box, and there is nothing to force. -/
theorem run_of_failsOnBoxes (hoptions : it.options.IsValid) (hmax : it.options.ladder.max ≤ 1)
    (hsolve : QpService.FailsOnBoxes it.env.solve) (hengaged : it.engaged = true) (μ : R)
    (s : Session σ R n) : ∃ s', it.run μ s = ((.error .qpFailure, μ), s') := by
  have hsteers {ladder : Ladder} (h : ladder.IsWithin it.options.ladder.max) :
      ladder.level.usesSteering = true :=
    Level.usesSteering_iff.2 (h.index_le.trans hmax)
  have hround (a b : ClimbStage σ R n) (hab : it.climbRound a = .inl b)
      (ha : a.ladder.IsWithin it.options.ladder.max ∧ a.climb = .start μ) :
      b.ladder.IsWithin it.options.ladder.max ∧ b.climb = .start μ := by
    refine ⟨isWithin_climbRound hab ha.1, ?_⟩
    have hround := it.round_climbRound a
    rw [hab] at hround
    cases hround with
    | again hattempt =>
      obtain ⟨hfailed, -⟩ := attempted_of_failsOnBoxes hsolve hengaged (hsteers ha.1) hattempt
      cases hfailed
    | escalated hattempt _ =>
      exact (attempted_of_failsOnBoxes hsolve hengaged (hsteers ha.1) hattempt).2.trans ha.2
  have hstart := Ladder.isWithin_start hoptions.ladderMin_le_max hoptions.ladderMax_le it.engaged
  rcases hclimb : it.climbFrom (.start it.options.ladder it.engaged) (.start μ) s with ⟨⟨e, c⟩, s₁⟩
  obtain ⟨a, s₂, ⟨hwithin, hclean⟩, hattempt, -⟩ := exists_last_attempt
    (P := fun a ↦ a.ladder.IsWithin it.options.ladder.max ∧ a.climb = .start μ) hround ⟨hstart, rfl⟩
    hclimb
  obtain ⟨hfailed, hsame⟩ := attempted_of_failsOnBoxes hsolve hengaged (hsteers hwithin) hattempt
  cases hfailed
  cases hsame.trans hclean
  rw [run, Action.bind_apply, hclimb]
  cases hforce : it.options.forceMovement <;> exact ⟨_, rfl⟩

end IterationContext

/-! ## Whole runs -/

variable {env : Environment σ R n} {options : Options R} {x₀ : Vector R n} {world : σ}
    {r : RunResult R n} {s : Session σ R n}

/-- **Failure codes tell why a run failed**, in terms of the events after its last record.  A program
without an answer is reported only where steering is engaged and nothing else is permitted.  That no
step could be bracketed is reported of the weak Wolfe search only, where there are no constraints or
where the last rung was tried again as often as it may be.  That no step was acceptable is what the
last search of the last rung found, and the code tells whether the iterate is feasible.  With forced
movement all these are reported only if there was nothing to force. -/
theorem failures_are_reported (hrun : minimize env options x₀ world = (.ok r, s)) :
    ∃ (last : IterationRecord R n) (before events : List (Event R n)),
      r.history.back? = some last ∧
      s.transcript.toList = before ++ .recorded last :: events ∧
      (∀ e ∈ events, e.isRecorded = false) ∧
      (r.termination = .qpFailure →
        isEngaged r.final.toObservation options.steering.ineqMargin = true ∧
          options.ladder.max ≤ 1) ∧
      (r.termination = .lineSearchUnbounded → options.search.backtracking = false ∧
        (r.final.isConstrained = false ∧ r.final.mu = options.mu0 ∨
          ∃ rung, IsLastRung rung events ∧ rung.countP (·.isReattempted)
            = if r.iterations = 0 then options.firstReattempts.limit else options.reattempts.limit)) ∧
      (r.termination = .lineSearchFailedFeasible ∨ r.termination = .lineSearchFailedInfeasible →
        (∃ rung task e, IsLastRung rung events ∧ rung.getLast? = some (.searched task (.error e)) ∧
          ((∃ l u, e.reason = .wolfeNotSatisfied l u) ∨ e.reason = .armijoNotSatisfied)) ∧
        (r.termination = .lineSearchFailedFeasible ↔
          r.final.isFeasible options.stopping.ineqTol options.stopping.eqTol = true)) ∧
      (options.forceMovement = true → r.termination.isTotalFailure = true →
        Unforced r.final.shape r.final.point options.search.initialStep events) := by
  obtain ⟨hoptions, -, first, as, hfirst, hfinite, rfl, hpath⟩ := minimize_eq_ok hrun
  obtain ⟨a, ha, hlast⟩ := hpath.exists_last
  obtain ⟨hback, before, events, htranscript, hrecorded, hevents⟩ :=
    RunContext.exists_last_record hlast
  refine ⟨_, before, events, hback, htranscript, hrecorded, ?_⟩
  by_cases htotal : r.termination.isTotalFailure = true
  swap
  · refine ⟨fun h ↦ ?_, fun h ↦ ?_, fun h ↦ ?_, fun _ h ↦ absurd h htotal⟩
    · exact absurd (h ▸ rfl) htotal
    · exact absurd (h ▸ rfl) htotal
    · rcases h with h | h <;> exact absurd (h ▸ rfl) htotal
  obtain ⟨failure, events', rung, cause, hreason, hevents', hlastRung, hcause, hshown, hqp,
    hunbounded, hunforced⟩ := RunContext.exists_failure hoptions hlast htotal
  obtain rfl : events = events' := List.append_cancel_left (hevents.symm.trans hevents')
  have hshape : r.final.shape = first.shape := by
    have hanswered := RunContext.answered_of_path hpath (Progress.isFresh_start options first)
      (RunContext.isAnswered_initial env options world hfirst hfinite)
    obtain ⟨_, -, -, hshape, -⟩ := hanswered r.final (List.mem_append_right _ List.mem_cons_self)
    exact hshape
  have hfailure : r.termination.failure? = some failure :=
    hreason ▸ failure.failure?_termination _
  refine ⟨fun h ↦ ?_, fun h ↦ ?_, fun h ↦ ?_, fun hforce _ ↦ hshape ▸ hunforced hforce⟩
  · rw [h] at hfailure
    cases hfailure
    exact hqp rfl
  · rw [h] at hfailure
    cases hfailure
    obtain ⟨hwolfe, hcount⟩ := hunbounded rfl
    refine ⟨hwolfe, ?_⟩
    cases hconstrained : r.final.isConstrained with
    | true => exact .inr ⟨rung, hlastRung, hcount hconstrained⟩
    | false =>
      have hzero : first.shape = (0, 0) :=
        hshape.symm.trans (Observation.isConstrained_eq_false_iff.1 hconstrained)
      obtain ⟨-, hmu, -⟩ := RunContext.staysAt_of_path hpath hzero
        (RunContext.staysAt_initial env options world hzero)
      exact .inl ⟨rfl, hmu⟩
  · obtain rfl : failure = .unacceptable := by
      rcases h with h | h <;> rw [h] at hfailure <;> cases hfailure <;> rfl
    obtain ⟨task, e, rfl, hfound⟩ := hshown.exists_searched
    refine ⟨⟨rung, task, e, hlastRung, hcause, hfound⟩, ?_⟩
    rw [hreason, ClimbFailure.termination]
    split_ifs with hfeasible
    · exact iff_of_true rfl hfeasible
    · exact iff_of_false not_false hfeasible

/-! ## A run without answers -/

/-- On the plateau, a solver that never has an answer. -/
noncomputable def unsolvedPlateau : Environment Unit ℝ 1 :=
  { plateau with solve := fun _ ↦ pure (.error .nonFiniteData) }

/-- Options that permit one rung only, on which steering is always engaged, and force movement. -/
noncomputable def soleRungOptions : Options ℝ :=
  { Options.standard with
    ladder := { min := 1, max := 1, maxRandomAttempts := 1 }
    steering := { (Options.standard : Options ℝ).steering with ineqMargin := .posInf }
    forceMovement := true }

theorem isValid_soleRungOptions : soleRungOptions.IsValid :=
  { Options.isValid_standard with
    ladderMin_le := by decide
    ladderMax_le := by decide
    ladderMin_le_max := le_rfl
    maxRandomAttempts_ne_zero := one_ne_zero
    ineqMargin_nonneg := Extended.atLeast_posInf 0 }

@[inherit_doc unsolvedPlateau]
noncomputable def unsolvedRun : RunContext Unit ℝ 1 := ⟨unsolvedPlateau, soleRungOptions, (1, 0)⟩

/-- The stage at which a run without answers begins, and ends. -/
noncomputable def unsolvedStart : Stage Unit ℝ 1 :=
  .initial unsolvedPlateau soleRungOptions (plateauAt (.replicate 1 0)) ()

theorem iterateOnce_unsolvedStart : ∃ s, unsolvedRun.iterateOnce unsolvedStart
    = .inr (unsolvedRun.ending unsolvedStart 1 .qpFailure s) := by
  have htest : unsolvedRun.test unsolvedStart = none := if_neg (by
    rw [Bool.not_eq_true]
    exact isFeasible_plateau _ _)
  have hfails : QpService.FailsOnBoxes (unsolvedRun.climber unsolvedStart).env.solve :=
    fun _ _ _ ↦ ⟨.nonFiniteData, rfl⟩
  obtain ⟨s, hrun⟩ := IterationContext.run_of_failsOnBoxes isValid_soleRungOptions le_rfl hfails rfl 1
    (unsolvedRun.entered unsolvedStart)
  exact ⟨s, RunContext.iterateOnce_of_run_eq_error htest (Nat.succ_ne_zero 999) rfl hrun⟩

/-- A run without answers reports just that. -/
theorem exists_minimize_unsolvedPlateau :
    ∃ r s, minimize unsolvedPlateau soleRungOptions (.replicate 1 0) () = (.ok r, s) ∧
      r.termination = .qpFailure := by
  obtain ⟨r, s, hrun⟩ :
      ∃ r s, minimize unsolvedPlateau soleRungOptions (.replicate 1 0) () = (.ok r, s) :=
    exists_minimize_eq_ok isValid_soleRungOptions one_ne_zero (toObservation?_plateau _)
      (by simp [Observation.isFinite, plateauAt, Constraint.isFinite]) (Linear.allFinite_real _)
  refine ⟨r, s, hrun, ?_⟩
  obtain ⟨-, -, first, as, hfirst, -, -, hpath⟩ := minimize_eq_ok hrun
  cases hfirst.symm.trans (toObservation?_plateau _)
  obtain ⟨s', hlast⟩ := iterateOnce_unsolvedStart
  cases hpath with
  | cons h => cases hlast.symm.trans h
  | last h => exact congrArg (·.1.termination) (Sum.inr.inj (h.symm.trans hlast))

/-- A solver without answers ends the run with just that, and nothing to force. -/
theorem failures_are_reported_unsolvedPlateau :
    ∃ r s, minimize unsolvedPlateau soleRungOptions (.replicate 1 0) () = (.ok r, s) ∧
      r.termination = .qpFailure ∧
      isEngaged r.final.toObservation .posInf = true ∧
      ∃ last before events, s.transcript.toList = before ++ .recorded last :: events ∧
        Unforced r.final.shape r.final.point 1 events := by
  obtain ⟨r, s, hrun, hreason⟩ := exists_minimize_unsolvedPlateau
  obtain ⟨last, before, events, -, htranscript, -, hqp, -, -, hunforced⟩ := failures_are_reported hrun
  exact ⟨r, s, hrun, hreason, (hqp hreason).1, last, before, events, htranscript,
    hunforced rfl (hreason ▸ rfl)⟩

end ExactPenalty
