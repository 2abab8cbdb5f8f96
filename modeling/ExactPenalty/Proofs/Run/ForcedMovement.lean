import ExactPenalty.Proofs.Run.Failures
import ExactPenalty.Proofs.Run.RandomDirections
import ExactPenalty.Proofs.Run.Segments

/-!
# Forced movement

An iteration whose ladder is exhausted may still make a step: the best trial of the search along the
last direction, or else the first step along it, for which the problem is evaluated once more.
`Forcing` says what can come of it, in terms of the events of the climb and of those after it.

* `IterationContext.exists_forcing_of_force` — the forced step of an iteration, and how it fails;
  `IterationContext.exists_forcing_of_run` — what becomes of the iteration.
* `movement_is_forced` — every iteration of a run whose ladder is exhausted ends in one of these ways.
-/

set_option autoImplicit false

namespace ExactPenalty

open Session ExactPenalty.Action

variable {σ R : Type} [Scalar R] {n : Nat}

/-! ## Rays -/

/-- The vector along which a direction is searched: backtracking may bring it to unit length. -/
def Direction.searchVector (d : Direction R n) (o : SearchOptions R) : Vector R n :=
  if o.backtracking = true ∧ o.unitDirection = true ∧ 0 < Linear.norm₂ d.vector then
    d.vector.map (· / Linear.norm₂ d.vector)
  else d.vector

theorem SearchTask.pointAt_forSearch {task : SearchTask R n} {d : Direction R n} {x : Vector R n}
    (o : SearchOptions R) (hstart : task.start.point = x) (hdirection : task.direction = d.vector)
    (step : R) : (task.forSearch o).pointAt step = Linear.along x (d.searchVector o) step := by
  subst hstart
  rw [forSearch, Direction.searchVector, ← hdirection]
  cases hback : o.backtracking with
  | false => rfl
  | true =>
    rw [if_pos rfl, forBacktracking]
    cases hunit : o.unitDirection with
    | false => simp [pointAt]
    | true =>
      rw [if_pos rfl, normalized]
      by_cases hlength : 0 < Linear.norm₂ task.direction <;> simp [hlength, pointAt]

/-- The trials of the last direction lie on the ray that was searched. -/
theorem LastDirection.point_eq {shape : Nat × Nat} {x : Vector R n} {o : SearchOptions R}
    {d : Direction R n} {trials : List (Trial R n)} {events : List (Event R n)}
    (h : LastDirection shape x o (some d) trials events) :
    ∀ t ∈ trials, t.iterate.point = Linear.along x (d.searchVector o) t.step := by
  intro t ht
  cases h with
  | refused => exact absurd ht List.not_mem_nil
  | searched _ _ _ hstart hdirection htrials _ =>
    rw [htrials.point_eq t ht, SearchTask.pointAt_forSearch o hstart hdirection]

/-! ## What can come of it -/

/-- What comes of forcing a step. -/
inductive ForcedAnswer (R : Type) (n : Nat) where
  | moved (direction : Direction R n) (step : R) (target : Observation R n)
  /-- No step could be forced, so the failure stands. -/
  | failed
  /-- The budget does not permit the evaluation that it takes. -/
  | stopped

/-- What comes of forcing a step at a point, given the events of the climb and those after it. -/
inductive Forcing (shape : Nat × Nat) (x : Vector R n) (o : SearchOptions R)
    (climb tail : List (Event R n)) : ForcedAnswer R n → Prop where
  /-- No direction was computed in the climb, and nothing is evaluated. -/
  | noDirection : (∀ e ∈ climb, e.direction? = none) → (∀ e ∈ tail, e.isEvaluated = false) →
      Forcing shape x o climb tail .failed
  /-- The last direction was searched, and the first of its usable trials with the lowest penalty is
  taken without another evaluation. -/
  | kept {d : Direction R n} {trials : List (Trial R n)} {t : Trial R n} :
      LastDirection shape x o (some d) trials climb → t.IsFirstLowest trials →
      t.iterate.point = Linear.along x (d.searchVector o) t.step →
      (∀ e ∈ tail, e.isEvaluated = false) →
      Forcing shape x o climb tail (.moved d t.step t.iterate.toObservation)
  /-- No trial along the last direction was usable, and the answer at its first step, the only
  evaluation there is, is taken. -/
  | probed {d : Direction R n} {trials : List (Trial R n)} {given : Evaluation R}
      {target : Observation R n} {rest : List (Event R n)} :
      LastDirection shape x o (some d) trials climb → (∀ t ∈ trials, t.isUsable = false) →
      tail = .evaluated (Linear.along x d.vector o.initialStep) given :: rest →
      (∀ e ∈ rest, e.isEvaluated = false) →
      given.screened shape (Linear.along x d.vector o.initialStep) = .evaluated target →
      Forcing shape x o climb tail (.moved d o.initialStep target)
  /-- No trial along the last direction was usable, and the answer at its first step, the only
  evaluation there is, is rejected. -/
  | rejected {d : Direction R n} {trials : List (Trial R n)} {given : Evaluation R}
      {rest : List (Event R n)} :
      LastDirection shape x o (some d) trials climb → (∀ t ∈ trials, t.isUsable = false) →
      tail = .evaluated (Linear.along x d.vector o.initialStep) given :: rest →
      (∀ e ∈ rest, e.isEvaluated = false) →
      given.screened shape (Linear.along x d.vector o.initialStep) = .rejected →
      Forcing shape x o climb tail .failed
  /-- No trial along the last direction was usable, and the budget is used up. -/
  | stopped {d : Direction R n} {trials : List (Trial R n)} :
      LastDirection shape x o (some d) trials climb → (∀ t ∈ trials, t.isUsable = false) →
      (∀ e ∈ tail, e.isEvaluated = false) → Forcing shape x o climb tail .stopped

section Forcing

variable {shape : Nat × Nat} {x : Vector R n} {o : SearchOptions R} {climb tail : List (Event R n)}
    {answer : ForcedAnswer R n}

theorem Forcing.append {more : List (Event R n)} (h : Forcing shape x o climb tail answer)
    (hmore : ∀ e ∈ more, e.isEvaluated = false) : Forcing shape x o climb (tail ++ more) answer := by
  cases h with
  | noDirection hnone htail => exact .noDirection hnone (List.forall_mem_append.2 ⟨htail, hmore⟩)
  | kept hlast hlowest hpoint htail =>
    exact .kept hlast hlowest hpoint (List.forall_mem_append.2 ⟨htail, hmore⟩)
  | probed hlast hnone htail hrest hgiven =>
    subst htail
    exact .probed hlast hnone rfl (List.forall_mem_append.2 ⟨hrest, hmore⟩) hgiven
  | rejected hlast hnone htail hrest hgiven =>
    subst htail
    exact .rejected hlast hnone rfl (List.forall_mem_append.2 ⟨hrest, hmore⟩) hgiven
  | stopped hlast hnone htail => exact .stopped hlast hnone (List.forall_mem_append.2 ⟨htail, hmore⟩)

/-- The step that is forced leads along the ray that was searched, or along the direction as it is. -/
theorem Forcing.point_eq {d : Direction R n} {step : R} {target : Observation R n}
    (h : Forcing shape x o climb tail (.moved d step target)) :
    target.point = Linear.along x (d.searchVector o) step ∨
      target.point = Linear.along x d.vector step := by
  cases h with
  | kept _ _ hpoint _ => exact .inl hpoint
  | probed _ _ _ _ hgiven => exact .inr (Evaluation.point_of_screened hgiven)

end Forcing

/-- What an answer means for an iteration whose ladder is exhausted for a reason. -/
def ForcedAnswer.Yields (run : RunContext σ R n) (reason : Termination) (s : Session σ R n) :
    ForcedAnswer R n → Except Termination (Move R n) → Prop
  | moved d step target, result => ∃ move, result = .ok move ∧ move.direction = d ∧
      move.step = step ∧ move.target = target ∧ move.forced = true
  | failed, result => result = .error reason
  | stopped, result => ∃ limit, result = .error limit ∧ run.exhausted? s = some limit

/-! ## A climb that exhausts its ladder -/

/-- The last permitted rung failed. -/
def Event.isExhausted : Event R n → Bool
  | failed _ .exhausted => true
  | _ => false

omit [Scalar R] in
theorem Event.isExhausted_of_isFailed {e : Event R n} (he : e.isFailed = false) :
    e.isExhausted = false := by
  cases e <;> first | rfl | cases he

namespace IterationContext

variable {it : IterationContext σ R n} {c c' : Climb R n} {d : Direction R n} {μ μ' : R}
    {s s' : Session σ R n} {reason : Termination}

theorem continues_attempted {level : Level} {left : Nat} {e : Option (ClimbEnd R n)}
    (h : it.Attempted level left c s e c' s') :
    Session.Continues (fun x ↦ x.isExhausted = false) s s' := by
  obtain ⟨events, hevents, hattempt⟩ := h.exists_events
  exact ⟨events, hevents, fun x hx ↦ Event.isExhausted_of_isFailed (hattempt.isFailed x hx)⟩

theorem continues_climbRound {a b : ClimbStage σ R n} (h : it.climbRound a = .inl b) :
    Session.Continues (fun x ↦ x.isExhausted = false) a.session b.session := by
  have hround := it.round_climbRound a
  rw [h] at hround
  cases hround with
  | again hattempt => exact continues_attempted hattempt
  | escalated hattempt hnext =>
    refine trans_of _ (continues_attempted hattempt) (.note ?_ _)
    cases hladder : a.ladder.next <;> first | rfl | exact absurd hladder hnext

/-- **How a climb ends in the transcript.**  A climb notes that its ladder is exhausted if and only if
it fails; then this is what it notes last, right after the cause of the failure. -/
theorem exists_events_of_climbFrom {ladder : Ladder} {e : ClimbEnd R n}
    (h : it.climbFrom ladder c s = ((e, c'), s')) :
    ∃ events, s'.transcript.toList = s.transcript.toList ++ events ∧
      ((∀ f, e ≠ .failed f) ∧ (∀ x ∈ events, x.isExhausted = false) ∨
        ∃ failure before cause last, e = .failed failure ∧ failure.ShownBy cause ∧
          events = before ++ [cause, .failed last .exhausted]) := by
  obtain ⟨a, s₁, ha, hattempt, ⟨⟨f, rfl⟩, hnext, rfl⟩ | ⟨hnot, rfl⟩⟩ := exists_last_attempt
    (P := fun a ↦ Session.Continues (fun x ↦ x.isExhausted = false) s a.session)
    (fun _ _ hab ha ↦ trans_of _ ha (continues_climbRound hab)) (refl_of _ s) h
  · obtain ⟨earlier, hearlier, -⟩ := ha
    obtain ⟨events, hevents, hattempted⟩ := hattempt.exists_events
    obtain ⟨cause, hcause, hshown⟩ := hattempted.cause f rfl
    obtain ⟨init, rfl⟩ := List.getLast?_eq_some_iff.1 hcause
    refine ⟨earlier ++ init ++ [cause, .failed a.ladder .exhausted], ?_,
      .inr ⟨f, _, cause, a.ladder, rfl, hshown, rfl⟩⟩
    rw [toList_note, hevents, hearlier, hnext]
    simp
  · obtain ⟨events, hevents, hnone⟩ := trans_of _ ha (continues_attempted hattempt)
    exact ⟨events, hevents, .inl ⟨hnot, hnone⟩⟩

/-- An iteration that reports a failure has exhausted its ladder. -/
theorem exists_exhausted_of_run_eq_error (h : it.run μ s = ((.error reason, μ'), s'))
    (htotal : reason.isTotalFailure = true) :
    ∃ events last, s'.transcript.toList = s.transcript.toList ++ events ∧
      .failed last .exhausted ∈ events := by
  have hlimit {s : Session σ R n} (hstopped : it.exhausted? s = some reason) : False := by
    rcases RunContext.exhausted?_eq_some hstopped with rfl | ⟨rfl, -⟩ <;> cases htotal
  obtain ⟨c, -, hclimb | ⟨failure, s₁, hclimb, -⟩⟩ := run_eq_error h
  · exact (hlimit (exhausted?_of_climbFrom_stopped hclimb)).elim
  obtain ⟨events, hevents, ⟨hnot, -⟩ | ⟨_, before, cause, last, -, -, rfl⟩⟩ :=
    exists_events_of_climbFrom hclimb
  · exact absurd rfl (hnot failure)
  obtain ⟨_, _, hclimb', more, hmore, -⟩ := exists_climb_of_run it.not_failed_of_force h
  cases hclimb.symm.trans hclimb'
  exact ⟨_, last, by rw [hmore, hevents, List.append_assoc], by simp⟩

/-! ## The forced step -/

/-- A look-up that is not refused notes the answer, and at most one more thing. -/
theorem exists_given_of_lookUp {x : Vector R n} {answer : Lookup R n}
    (h : it.lookUp x s = (answer, s')) :
    answer = .stopped ∧ s' = s ∨ ∃ given rest, given.screened it.shape x = answer ∧
      s'.transcript.toList = s.transcript.toList ++ .evaluated x given :: rest ∧
      ∀ e ∈ rest, e.isEvaluated = false := by
  rcases RunContext.exists_answer_of_lookUp h with hstopped | ⟨given, hgiven, hevents | hevents⟩
  · exact .inl hstopped
  · exact .inr ⟨given, [], hgiven.symm, hevents, List.forall_mem_nil _⟩
  · exact .inr ⟨given, [.misshapen], hgiven.symm, hevents, List.forall_mem_singleton.2 rfl⟩

/-- **What comes of forcing a step** after a climb whose events tell of its last direction. -/
theorem exists_forcing_of_force (horder : Scalar.OrdersFinite R) {climb : List (Event R n)}
    {trials : List (Trial R n)} {result : Except Termination (Move R n)}
    (hlast : LastDirection it.shape it.observation.point it.options.search c.lastDirection trials climb)
    (htrial : c.lastTrial = trials.foldl Trial.keepLower none)
    (h : it.force c reason s = (result, s')) :
    ∃ tail answer, s'.transcript.toList = s.transcript.toList ++ tail ∧
      Forcing it.shape it.observation.point it.options.search climb tail answer ∧
      answer.Yields it.toRunContext reason s' result := by
  have hunusable (hnone : c.lastTrial = none) : ∀ t ∈ trials, t.isUsable = false :=
    Trial.foldl_keepLower_eq_none_iff.1 (htrial.symm.trans hnone)
  cases result with
  | ok move =>
    obtain ⟨d, hd, ⟨trial, hkept, rfl, rfl⟩ | ⟨hnone, target, s₁, hlook, rfl, rfl⟩⟩ := force_eq_ok h <;>
      rw [hd] at hlast
    · have hlowest : trial.IsFirstLowest trials :=
        Trial.isFirstLowest_of_foldl horder (htrial.symm.trans hkept)
      exact ⟨_, _, toList_note _ _, .kept hlast hlowest (hlast.point_eq trial hlowest.mem)
        (List.forall_mem_singleton.2 rfl), _, rfl, rfl, rfl, rfl, rfl⟩
    · rcases exists_given_of_lookUp hlook with ⟨hstopped, -⟩ | ⟨given, rest, hgiven, hevents, hrest⟩
      · cases hstopped
      have hprobed := Forcing.probed hlast (hunusable hnone) rfl hrest hgiven
      have hnoted : ∀ e ∈ [(.forced it.options.search.initialStep d.level : Event R n)],
          e.isEvaluated = false := List.forall_mem_singleton.2 rfl
      refine ⟨_, _, ?_, hprobed.append hnoted, _, rfl, rfl, rfl, rfl, rfl⟩
      rw [toList_note, hevents, List.append_assoc]
  | error reason' =>
    rcases force_eq_error h with ⟨rfl, hd, rfl⟩ |
      ⟨d, answer, hd, hnone, hlook, ⟨rfl, rfl⟩ | ⟨rfl, rfl⟩⟩ <;> rw [hd] at hlast
    · cases hlast with
      | none hdirectionless =>
        exact ⟨_, _, toList_note _ _, .noDirection hdirectionless (List.forall_mem_singleton.2 rfl), rfl⟩
    · rcases exists_given_of_lookUp hlook with ⟨hstopped, -⟩ | ⟨given, rest, hgiven, hevents, hrest⟩
      · cases hstopped
      · exact ⟨_, _, hevents, .rejected hlast (hunusable hnone) rfl hrest hgiven, rfl⟩
    · have hlimit := RunContext.exhausted?_of_lookUp_stopped hlook
      rcases RunContext.lookUp_cases it.toRunContext (Linear.along it.observation.point d.vector
        it.options.search.initialStep) s with ⟨hstopped, -⟩ | ⟨-, hne, -⟩
      · cases hlook.symm.trans hstopped
        exact ⟨[], _, (List.append_nil _).symm,
          .stopped hlast (hunusable hnone) (List.forall_mem_nil _), _, rfl, hlimit⟩
      · rw [hlook] at hne
        exact absurd rfl hne

/-- **What comes of an iteration** whose ladder is exhausted, where movement is forced. -/
theorem exists_forcing_of_run (horder : Scalar.OrdersFinite R) (hforce : it.options.forceMovement = true)
    {result : Except Termination (Move R n)} {events : List (Event R n)} {last : Ladder}
    (h : it.run μ s = ((result, μ'), s'))
    (hevents : s'.transcript.toList = s.transcript.toList ++ events)
    (hexhausted : .failed last .exhausted ∈ events) :
    ∃ (before : List (Event R n)) (cause : Event R n) (last : Ladder) (tail : List (Event R n))
      (failure : ClimbFailure) (answer : ForcedAnswer R n),
      events = before ++ [cause, .failed last .exhausted] ++ tail ∧ failure.ShownBy cause ∧
      Forcing it.shape it.observation.point it.options.search
        (before ++ [cause, .failed last .exhausted]) tail answer ∧
      answer.Yields it.toRunContext (failure.termination (it.observation.isFeasible
        it.options.stopping.ineqTol it.options.stopping.eqTol)) s' result := by
  rw [run, bind_apply] at h
  rcases hclimb : it.climbFrom (.start it.options.ladder it.engaged) (.start μ) s with ⟨⟨e, c⟩, s₁⟩
  rw [hclimb] at h
  obtain ⟨climb, hclimbed, ⟨hnot, hnone⟩ | ⟨failure, before, cause, final, rfl, hshown, rfl⟩⟩ :=
    exists_events_of_climbFrom hclimb
  · -- nothing was noted after a climb that did not fail, and such a climb exhausts no ladder
    have hsame : s' = s₁ := by
      cases e with
      | failed failure => exact absurd rfl (hnot failure)
      | moved move => exact (congrArg Prod.snd h).symm
      | stopped reason => exact (congrArg Prod.snd h).symm
    subst hsame
    obtain rfl := List.append_cancel_left (hevents.symm.trans hclimbed)
    exact absurd (hnone _ hexhausted) (by simp [Event.isExhausted])
  · obtain ⟨events', trials, hevents', hlast, htrial⟩ := tells_climbFrom hclimb
    obtain rfl := List.append_cancel_left (hevents'.symm.trans hclimbed)
    dsimp only at h
    rw [if_pos hforce, bind_apply] at h
    rcases hforced : it.force c (failure.termination (it.observation.isFeasible
      it.options.stopping.ineqTol it.options.stopping.eqTol)) s₁ with ⟨result', s₂⟩
    rw [hforced] at h
    cases h
    obtain ⟨tail, answer, htail, hforcing, hyields⟩ := exists_forcing_of_force horder hlast htrial hforced
    refine ⟨before, cause, final, tail, failure, answer, ?_, hshown, hforcing, hyields⟩
    rw [htail, hclimbed, List.append_assoc] at hevents
    exact (List.append_cancel_left hevents).symm

end IterationContext

/-! ## Iterations -/

section Iterations

variable {run : RunContext σ R n} {a : Stage σ R n} {next : Stage σ R n ⊕ (RunResult R n × Session σ R n)}
    {events : List (Event R n)} {last : Ladder}

omit [Scalar R] in
theorem Event.IsClosing.isEvaluated {e : Event R n} (he : e.IsClosing) : e.isEvaluated = false := by
  cases e <;> first | rfl | exact he.elim

/-- What comes of an iteration of a run, whose ladder is exhausted, and where that leads. -/
theorem RunContext.Noted.exists_forcing (horder : Scalar.OrdersFinite R)
    (hforce : run.options.forceMovement = true) (h : run.Noted a next events)
    (hexhausted : .failed last .exhausted ∈ events) :
    ∃ (before : List (Event R n)) (cause : Event R n) (last : Ladder) (tail : List (Event R n))
      (failure : ClimbFailure) (answer : ForcedAnswer R n) (result : Except Termination (Move R n))
      (μ : R) (s : Session σ R n),
      events = before ++ [cause, .failed last .exhausted] ++ tail ∧ failure.ShownBy cause ∧
      Forcing run.shape a.progress.current.point run.options.search
        (before ++ [cause, .failed last .exhausted]) tail answer ∧
      answer.Yields run (failure.termination (a.progress.current.isFeasible
        run.options.stopping.ineqTol run.options.stopping.eqTol)) s result ∧
      next = match result with
        | .error reason => .inr (run.ending a μ reason s)
        | .ok move => .inl (run.following a move μ s) := by
  have hopen {closing : List (Event R n)} (hclosing : ∀ e ∈ closing, e.IsClosing) :
      .failed last .exhausted ∉ closing := fun hmem ↦ hclosing _ hmem
  cases h with
  | ended _ hclosing => exact absurd hexhausted (hopen hclosing)
  | @failed _ μ s climb closing hrun hclimb hclosing
  | @moved _ μ s climb closing hrun hclimb hclosing =>
    have hmem := (List.mem_append.1 hexhausted).resolve_right (hopen hclosing)
    obtain ⟨before, cause, final, tail, failure, answer, rfl, hshown, hforcing, hyields⟩ :=
      IterationContext.exists_forcing_of_run horder hforce hrun hclimb hmem
    exact ⟨before, cause, final, tail ++ closing, failure, answer, _, μ, s, List.append_assoc ..,
      hshown, hforcing.append fun e he ↦ (hclosing e he).isEvaluated, hyields, rfl⟩

end Iterations

/-! ## Whole runs -/

section Runs

variable {env : Environment σ R n} {options : Options R} {x₀ : Vector R n} {world : σ}
    {r : RunResult R n} {s : Session σ R n} {k : Nat} {record : IterationRecord R n} {last : Ladder}

/-- A run that reports a failure has exhausted the ladder of its last iteration. -/
theorem exists_exhausted_of_isTotalFailure (hrun : minimize env options x₀ world = (.ok r, s))
    (htotal : r.termination.isTotalFailure = true) :
    ∃ k record last, r.history[k]? = some record ∧ .failed last .exhausted ∈ s.eventsOf k := by
  obtain ⟨-, -, first, as, -, -, -, hpath⟩ := minimize_eq_ok hrun
  have hsize : r.history.size = as.length + 1 := RunContext.size_history_of_path hpath rfl
  have hk : r.history[as.length]? = some r.history[as.length] :=
    Array.getElem?_eq_getElem (by omega)
  obtain ⟨b, -, -, -, hnoted, hnext, hlast⟩ := RunContext.noted_eventsOf hpath hk
  rcases hround : RunContext.iterateOnce ⟨env, options, first.shape⟩ b with c | r'
  · -- the iteration was the last one
    have hbeyond := hnext c hround
    rw [Array.getElem?_eq_none hsize.le] at hbeyond
    cases hbeyond
  obtain ⟨rfl, -⟩ := hlast r' hround
  obtain ⟨htest, hleft, hwithin, s', hfailed, -⟩ :=
    RunContext.exists_run_of_isTotalFailure hround htotal
  obtain ⟨climb, closing, hevents, hclimb, -⟩ := hnoted.exists_climb htest hleft hwithin hfailed
  obtain ⟨events, last, hevents', hexhausted⟩ :=
    IterationContext.exists_exhausted_of_run_eq_error hfailed htotal
  obtain rfl := List.append_cancel_left (hclimb.symm.trans hevents')
  exact ⟨as.length, _, last, hk, hevents ▸ List.mem_append_left _ hexhausted⟩

/-- **Where movement is forced**, every iteration whose ladder is exhausted either makes a step along
the last direction that was computed, or ends the run.  Which step it makes, what it evaluates for it,
and why it may fail is `Forcing`, said of the events of this iteration: those up to the failure of the
last rung, and those after it.  A forced step is recorded as such, with the rung of the direction and
the step; a failure ends the run with the code of the last cause, and a limit with its own code. -/
theorem movement_is_forced (horder : Scalar.OrdersFinite R)
    (hrun : minimize env options x₀ world = (.ok r, s)) (hforce : options.forceMovement = true)
    (hk : r.history[k]? = some record) (hexhausted : .failed last .exhausted ∈ s.eventsOf k) :
    ∃ (before : List (Event R n)) (cause : Event R n) (last : Ladder) (tail : List (Event R n))
      (failure : ClimbFailure) (answer : ForcedAnswer R n),
      s.eventsOf k = before ++ [cause, .failed last .exhausted] ++ tail ∧ failure.ShownBy cause ∧
      Forcing record.iterate.shape record.iterate.point options.search
        (before ++ [cause, .failed last .exhausted]) tail answer ∧
      (∀ d step target, answer = .moved d step target →
        ∃ next taken, r.history[k + 1]? = some next ∧ next.iterate.toObservation = target ∧
          next.step = some taken ∧ taken.forced = true ∧ taken.level = d.level ∧ taken.step = step ∧
          (target.point = Linear.along record.iterate.point (d.searchVector options.search) step ∨
            target.point = Linear.along record.iterate.point d.vector step)) ∧
      (answer = .failed → r.history.size = k + 1 ∧ r.termination = failure.termination
        (record.iterate.isFeasible options.stopping.ineqTol options.stopping.eqTol)) ∧
      (answer = .stopped → r.history.size = k + 1 ∧
        RunContext.exhausted? ⟨env, options, record.iterate.shape⟩ s = some r.termination) := by
  obtain ⟨-, -, first, as, hfirst, hfinite, rfl, hpath⟩ := minimize_eq_ok hrun
  obtain ⟨b, hb, rfl, -, hnoted, hnext, hlast⟩ := RunContext.noted_eventsOf hpath hk
  have hshape : b.progress.current.shape = first.shape := by
    have hanswered := hpath.forall_mem (P := RunContext.IsAnswered ⟨env, options, first.shape⟩)
      (fun _ _ _ h _ ↦ RunContext.isAnswered_iterateOnce h)
      (RunContext.isAnswered_initial env options world hfirst hfinite) b (List.mem_of_getElem? hb)
    obtain ⟨_, -, -, hshape, -⟩ := hanswered
    exact hshape
  obtain ⟨before, cause, final, tail, failure, answer, result, μ, s', hevents, hshown, hforcing,
    hyields, hround⟩ := hnoted.exists_forcing horder hforce hexhausted
  rw [← hshape] at hforcing
  refine ⟨before, cause, final, tail, failure, answer, hevents, hshown, hforcing, ?_, ?_, ?_⟩
  · rintro d step target rfl
    obtain ⟨move, rfl, rfl, rfl, rfl, hforced⟩ := hyields
    exact ⟨_, _, hnext _ hround, rfl, rfl, hforced, rfl, rfl, hforcing.point_eq⟩
  · rintro rfl
    cases hyields
    obtain ⟨hr, hsize⟩ := hlast _ hround
    exact ⟨hsize, (congrArg (·.1.termination) hr).symm⟩
  · rintro rfl
    obtain ⟨limit, rfl, hlimit⟩ := hyields
    obtain ⟨hr, hsize⟩ := hlast _ hround
    cases hr
    exact ⟨hsize, hlimit⟩

end Runs

/-- Where no program has an answer no direction is computed, and the failure stands.  On the ramp there is
a last direction, and a step is forced along it. -/
theorem movement_is_forced_plateau_ramp :
    (∃ r s, minimize unsolvedPlateau soleRungOptions (.replicate 1 0) () = (.ok r, s) ∧
      ∃ k record last, r.history[k]? = some record ∧ .failed last .exhausted ∈ s.eventsOf k ∧
        ∃ climb tail answer, s.eventsOf k = climb ++ tail ∧
          Forcing record.iterate.shape record.iterate.point soleRungOptions.search climb tail answer ∧
          (answer = .failed → r.history.size = k + 1)) ∧
    ∃ r s, minimize ramp (rampOptions true) (.replicate 1 0) () = (.ok r, s) ∧
      ∃ record last, r.history[0]? = some record ∧ .failed last .exhausted ∈ s.eventsOf 0 ∧
        ∃ climb tail d step target next taken, s.eventsOf 0 = climb ++ tail ∧
          Forcing record.iterate.shape record.iterate.point singleDrawOptions.search climb tail
            (.moved d step target) ∧
          r.history[1]? = some next ∧ next.iterate.toObservation = target ∧ next.step = some taken ∧
          taken.forced = true ∧ taken.step = step ∧
          target.point = Linear.along record.iterate.point d.vector step := by
  constructor
  · obtain ⟨r, s, hrun, hreason⟩ := exists_minimize_unsolvedPlateau
    obtain ⟨k, record, last, hk, hexhausted⟩ :=
      exists_exhausted_of_isTotalFailure hrun (hreason ▸ rfl)
    obtain ⟨before, cause, final, tail, failure, answer, hevents, -, hforcing, -, hfailed, -⟩ :=
      movement_is_forced Scalar.ordersFinite_real hrun rfl hk hexhausted
    exact ⟨r, s, hrun, k, record, last, hk, hexhausted, _, tail, answer, hevents, hforcing,
      fun h ↦ (hfailed h).1⟩
  · obtain ⟨r, s, a, b, _, last, hrun, ha, hb, -, -, -, -, -, hexhausted⟩ := exists_minimize_forcedRamp
    have hsize : r.history.size ≠ 0 + 1 := fun h ↦ by
      rw [Array.getElem?_eq_none h.le] at hb
      cases hb
    obtain ⟨before, cause, final, tail, failure, answer, hevents, -, hforcing, hmoved, hfailed, hstopped⟩ :=
      movement_is_forced Scalar.ordersFinite_real hrun rfl ha hexhausted
    cases answer with
    | failed => exact absurd (hfailed rfl).1 hsize
    | stopped => exact absurd (hstopped rfl).1 hsize
    | moved d step target =>
      obtain ⟨next, taken, hnext, htarget, htaken, hforced, -, hstep, hpoint⟩ := hmoved d step target rfl
      -- backtracking is off, so the ray that was searched is that of the direction
      have hray : d.searchVector (rampOptions true).search = d.vector := if_neg fun h ↦ by cases h.1
      exact ⟨r, s, hrun, a, last, ha, hexhausted, _, tail, d, step, target, next, taken, hevents, hforcing,
        hnext, htarget, htaken, hforced, hstep, hpoint.elim (fun h ↦ hray ▸ h) id⟩

end ExactPenalty
