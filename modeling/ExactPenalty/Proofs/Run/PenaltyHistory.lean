import ExactPenalty.Proofs.Run.Answers
import ExactPenalty.Proofs.Run.PenaltyParameter
import ExactPenalty.Proofs.Run.RandomDirections

/-!
# The penalty parameter along a run

From one record to the next the penalty parameter is multiplied by the factor of the reattempts, as
often as the step tells, and by the factor of steering, no more often than the steered directions
between the two records allow (`penalty_parameter_shrinks`).  What an iteration does to it is shown in
`IterationContext.shrinks_of_run_eq`; here it is read off the history and the transcript.

Without constraints nothing is steered and nothing is tried again, so there is one penalty parameter
in the whole run.  `Event.TellsOnly` says so of the events: every attempt, search and record in the
transcript has it.
-/

set_option autoImplicit false

namespace ExactPenalty

open Session ExactPenalty.Action

variable {σ R : Type} [Scalar R] {n : Nat}

/-! ## Without constraints -/

/-- The penalty parameters that an event tells of. -/
def Event.penalties : Event R n → List R
  | started _ μ => [μ]
  | recorded record => record.iterate.mu :: (record.step.map (·.mu)).toList
  | attempted attempt =>
    (attempt.direction?.map (·.mu)).toList ++ (attempt.steered.map (·.mu)).toList
  | lowered before after => [before, after]
  | searched task _ => [task.mu]
  | reattempted _ _ _ μ => [μ]
  | ended _ _ last iterate => [last.iterate.mu, iterate.mu]
  | evaluated _ _ | misshapen | conditioned _ | failed _ _ | nothingToForce | forced _ _
  | updated _ _ => []

/-- The event tells of no other penalty parameter. -/
def Event.TellsOnly (μ : R) (e : Event R n) : Prop := ∀ ν ∈ e.penalties, ν = μ

omit [Scalar R] in
theorem Event.tellsOnly_of_penalties_eq {μ : R} {e : Event R n} (h : e.penalties = []) :
    e.TellsOnly μ := by
  intro ν hν
  rw [h] at hν
  exact absurd hν List.not_mem_nil

namespace IterationContext

variable {it : IterationContext σ R n} {level : Level} {left : Nat} {c c' : Climb R n} {μ μ' : R}
    {d : Direction R n} {s s₁ s' : Session σ R n}

/-- A climb with a penalty parameter keeps it, and tells of no other one. -/
def StaysAt (μ : R) (p p' : Climb R n × Session σ R n) : Prop :=
  p.1.mu = μ → p'.1.mu = μ ∧ Session.Continues (Event.TellsOnly μ) p.2 p'.2

instance StaysAt.instIsPreorder (μ : R) :
    IsPreorder (Climb R n × Session σ R n) (StaysAt μ) where
  refl p hp := ⟨hp, refl_of _ p.2⟩
  trans p₁ p₂ p₃ h h' hp := by
    obtain ⟨hmu, hcontinues⟩ := h hp
    obtain ⟨hmu', hcontinues'⟩ := h' hmu
    exact ⟨hmu', trans_of _ hcontinues hcontinues'⟩

theorem tellsOnly_lookUp (it : IterationContext σ R n) (μ : R) (x : Vector R n) :
    Leads (Session.Continues (Event.TellsOnly μ)) (it.lookUp x) :=
  it.continues_lookUp (fun _ ↦ Event.tellsOnly_of_penalties_eq rfl) (Event.tellsOnly_of_penalties_eq rfl)

section Unconstrained

variable (hengaged : it.engaged = false)
include hengaged

/-- Where steering is not engaged a direction is made for the penalty parameter in force. -/
theorem tellsOnly_makeDirection {result : Except (DirectionError R n) (Direction R n)}
    (h : it.makeDirection level μ s = (result, s')) :
    Session.Continues (Event.TellsOnly μ) s s' ∧ ∀ d, result = .ok d → d.mu = μ := by
  obtain ⟨attempt, hattempt, rfl, htranscript⟩ := exists_attempt_of_makeDirection h
  obtain ⟨hsteered, hmu⟩ : attempt.steered = none ∧ ∀ d, attempt.direction? = some d → d.mu = μ :=
    hattempt ▸ DirectionContext.attempt_of_not_engaged hengaged
  refine ⟨⟨_, htranscript, fun e he ↦ ?_⟩, fun d hd ↦ hmu d ?_⟩
  · rw [List.mem_singleton.1 he]
    intro ν hν
    rw [Event.penalties, hsteered, Option.map_none, Option.toList_none, List.append_nil,
      Option.mem_toList, Option.map_eq_some_iff] at hν
    obtain ⟨d, hd, rfl⟩ := hν
    exact hmu d hd
  · rw [DirectionAttempt.direction?, hd]

theorem staysAt_searchAlong {result : SearchResult R n}
    (hd : it.makeDirection level c.mu s = (.ok d, s₁))
    (hs : it.searchAlong c d s₁ = ((result, c'), s')) : StaysAt μ (c, s) (c', s') := by
  rintro rfl
  obtain ⟨hmade, hmu⟩ := tellsOnly_makeDirection hengaged hd
  have hdmu : d.mu = c.mu := hmu d rfl
  obtain ⟨rfl, s₂, s₃, hsearch, rfl, hs₂⟩ := searchAlong_eq hs
  have hlowered : (c.lowered d).mu = c.mu := by
    rw [Climb.lowered]
    split_ifs
    · exact hdmu
    · rfl
  have hnoted : Session.Continues (Event.TellsOnly c.mu) s₁ s₂ := by
    rcases hs₂ with rfl | rfl
    · exact refl_of _ s₂
    · refine .note (fun ν hν ↦ ?_) s₁
      simp only [Event.penalties, hdmu, List.mem_cons, List.not_mem_nil, or_false, or_self] at hν
      exact hν
  have hlooked : Session.Continues (Event.TellsOnly c.mu) s₂ s₃ := by
    have hrel := (lookups_lineSearch it.lookUp (it.task (c.lowered d) d) it.options.search
      s₂).rel (it.tellsOnly_lookUp c.mu)
    rwa [hsearch] at hrel
  have hsearched : Session.Continues (Event.TellsOnly c.mu) s₃
      (note (.searched (it.task (c.lowered d) d) result) s₃).2 :=
    .note (fun ν hν ↦ (List.mem_singleton.1 hν).trans hlowered) s₃
  exact ⟨hlowered, trans_of _ (trans_of _ hmade hnoted) (trans_of _ hlooked hsearched)⟩

/-- Without constraints an attempt leaves the penalty parameter alone. -/
theorem Attempted.staysAt (hconstrained : it.observation.isConstrained = false)
    {e : Option (ClimbEnd R n)} (h : it.Attempted level left c s e c' s') :
    StaysAt μ (c, s) (c', s') := by
  have hmade {result : Except (DirectionError R n) (Direction R n)} {c' : Climb R n}
      (hmu : c'.mu = c.mu) (hd : it.makeDirection level c.mu s = (result, s')) :
      StaysAt μ (c, s) (c', s') := by
    rintro rfl
    exact ⟨hmu, (tellsOnly_makeDirection hengaged hd).1⟩
  have hsearched {d : Direction R n} {e : SearchError R n} {c₁ : Climb R n}
      {s₁ s₂ : Session σ R n} (hd : it.makeDirection level c.mu s = (.ok d, s₁))
      (hs : it.searchAlong c d s₁ = ((.error e, c₁), s₂)) :
      StaysAt μ (c, s) (c₁.searched d e, s₂) := by
    have hsearch := staysAt_searchAlong (μ := μ) hengaged hd hs
    exact hsearch
  cases h with
  | qp hd | nonDescent hd | degenerate hd => exact hmade rfl hd
  | moved hd hs => exact staysAt_searchAlong hengaged hd hs
  | stopped hd hs | ascending hd hs | unacceptable hd hs | unbounded hd hs => exact hsearched hd hs
  | again _ _ _ hagain => exact absurd (hconstrained.symm.trans hagain) Bool.false_ne_true

/-- **Without constraints an iteration leaves the penalty parameter alone.** -/
theorem staysAt_of_run_eq (hconstrained : it.observation.isConstrained = false)
    {answer : Except Termination (Move R n)} (h : it.run μ s = ((answer, μ'), s')) :
    μ' = μ ∧ Session.Continues (Event.TellsOnly μ) s s' := by
  have hnote {e : Event R n} (he : e.penalties = []) (c : Climb R n) (s : Session σ R n) :
      StaysAt μ (c, s) (c, (note e s).2) :=
    fun hc ↦ ⟨hc, .note (Event.tellsOnly_of_penalties_eq he) s⟩
  have hforce (c : Climb R n) (reason : Termination) (s : Session σ R n) :
      StaysAt μ (c, s) (c, (it.force c reason s).2) := by
    refine fun hc ↦ ⟨hc, it.leads_force_of ?_ (fun _ _ ↦ ?_) (it.tellsOnly_lookUp μ) c reason s⟩
    · exact .note (Event.tellsOnly_of_penalties_eq rfl)
    · exact .note (Event.tellsOnly_of_penalties_eq rfl)
  obtain ⟨c, rfl, hstays, -⟩ := rel_run (f := Prod.mk) (fun h ↦ h.staysAt hengaged hconstrained)
    (fun c _ _ s ↦ hnote rfl c s) hforce h
  exact hstays rfl

end Unconstrained

end IterationContext

namespace RunContext

variable {run : RunContext σ R n} {a b : Stage σ R n} {as : List (Stage σ R n)} {μ : R}

/-- A stage without constraints, where no other penalty parameter was seen so far. -/
structure StaysAt (μ : R) (a : Stage σ R n) : Prop where
  shape : a.progress.current.shape = (0, 0)
  mu_eq : a.progress.current.mu = μ
  step : ∀ step, a.progress.step = some step → step.mu = μ
  tells : ∀ e ∈ a.session.transcript, e.TellsOnly μ

namespace StaysAt

theorem climber (ha : StaysAt μ a) {answer : Except Termination (Move R n)} {μ' : R}
    {s : Session σ R n}
    (h : (run.climber a).run a.progress.current.mu (run.entered a) = ((answer, μ'), s)) :
    μ' = μ ∧ Session.Continues (Event.TellsOnly μ) (run.entered a) s := by
  rw [ha.mu_eq] at h
  exact IterationContext.staysAt_of_run_eq
    (isEngaged_of_shape_eq_zero ha.shape run.options.steering.ineqMargin)
    (Observation.isConstrained_eq_false_iff.2 ha.shape) h

theorem entered (ha : StaysAt μ a) : ∀ e ∈ (run.entered a).transcript, e.TellsOnly μ := by
  obtain ⟨raised, hentered⟩ := run.transcript_entered a
  intro e he
  rw [← Array.mem_toList_iff, hentered, List.mem_append, Array.mem_toList_iff, List.mem_pair] at he
  rcases he with hbefore | rfl | rfl
  · exact ha.tells e hbefore
  · exact Event.tellsOnly_of_penalties_eq rfl
  · intro ν hν
    rcases List.mem_cons.1 hν with rfl | hstep
    · exact ha.mu_eq
    · rw [Option.mem_toList, Option.map_eq_some_iff] at hstep
      obtain ⟨step, hstep, rfl⟩ := hstep
      exact ha.step step hstep

theorem iterateOnce (ha : StaysAt μ a) (h : run.iterateOnce a = .inl b)
    (hshape : b.progress.current.shape = (0, 0)) : StaysAt μ b := by
  obtain ⟨move, μ', s, -, hrun, rfl⟩ := exists_move h
  obtain ⟨rfl, hcontinues⟩ := ha.climber hrun
  refine ⟨hshape, rfl, ?_, fun e he ↦ ?_⟩
  · rintro step ⟨⟩
    rfl
  · rcases Array.mem_push.1 he with hbefore | rfl
    · exact hcontinues.forall_mem ha.entered e hbefore
    · exact Event.tellsOnly_of_penalties_eq rfl

/-- A run without constraints ends with the penalty parameter that it had. -/
theorem result {r : RunResult R n × Session σ R n} (ha : StaysAt μ a)
    (h : run.iterateOnce a = .inr r) :
    r.1.final.mu = μ ∧ ∀ e ∈ r.2.transcript, e.TellsOnly μ := by
  obtain ⟨μ', reason, s, rfl, hended⟩ := ending_cases h
  obtain ⟨rfl, htells⟩ : μ' = μ ∧ ∀ e ∈ s.transcript, e.TellsOnly μ := by
    rcases hended with ⟨rfl, rfl⟩ | hrun
    · exact ⟨ha.mu_eq, ha.entered⟩
    · obtain ⟨hμ, hcontinues⟩ := ha.climber hrun
      exact ⟨hμ, hcontinues.forall_mem ha.entered⟩
  refine ⟨rfl, fun e he ↦ ?_⟩
  rcases Array.mem_push.1 he with hbefore | rfl
  · exact htells e hbefore
  · intro ν hν
    rcases List.mem_pair.1 hν with rfl | rfl
    · exact ha.mu_eq
    · rfl

end StaysAt

/-! ## From one record to the next -/

/-- **What a step does to the penalty parameter**, in terms of the events between the two records. -/
theorem exists_shrunk_between {r : RunResult R n × Session σ R n} {c : Stage σ R n}
    (hpath : Path run.iterateOnce (a :: as) r) (hc : c ∈ a :: as) (hbc : run.iterateOnce b = .inl c) :
    ∃ step, c.progress.step = some step ∧ c.progress.current.mu = step.mu ∧
      step.engaged = isEngaged b.progress.current.toObservation run.options.steering.ineqMargin ∧
      (run.options.search.backtracking = true → step.reattempts = 0) ∧
      ∃ (before between after : List (Event R n)) (shrinks : Nat),
        r.2.transcript.toList
          = before ++ .recorded (run.record b) :: between ++ .recorded (run.record c) :: after ∧
        (∀ e ∈ between, e.isRecorded = false) ∧
        shrinks ≤ run.options.steering.maxShrinks * between.countP (·.isSteered) ∧
        (step.engaged = false → shrinks = 0) ∧
        Shrunk (run.climber b).reattempts.factor run.options.steering.shrinkFactor
          b.progress.current.mu step.reattempts shrinks c.progress.current.mu := by
  obtain ⟨before, between, after, htranscript, hrecorded, hb, hc'⟩ := exists_between hpath hc hbc
  obtain ⟨move, μ, s, -, hrun, rfl⟩ := exists_move hbc
  obtain ⟨last, rfl, ⟨r', k, hr, hshrunk, hk, hengaged, hagain⟩, hmove⟩ :=
    IterationContext.shrinks_of_run_eq hrun
  have hreattempts : move.reattempts = r' := (hmove move rfl).trans (hr.trans (Nat.zero_add r'))
  have hbefore : (run.entered b).steered = before.countP (·.isSteered) := by
    rw [steered, hb, List.countP_append]
    rfl
  have hafter : s.steered = before.countP (·.isSteered) + between.countP (·.isSteered) := by
    obtain ⟨raised, hentered⟩ := run.transcript_entered (run.following b move last.mu s)
    have hnoted : (run.following b move last.mu s).session.transcript.toList
        = s.transcript.toList ++ [.updated _ _] := Array.toList_push
    have hcount := congrArg (List.countP (·.isSteered)) (hc'.symm.trans hentered)
    simp only [hnoted, List.countP_append, List.countP_cons, List.countP_nil, Event.isSteered,
      Bool.false_eq_true, if_false, Nat.add_zero] at hcount
    exact hcount.symm
  refine ⟨_, rfl, rfl, rfl, fun hback ↦ ?_, before, between, after, k, htranscript, hrecorded, ?_,
    hengaged, ?_⟩
  · by_contra hne
    have hnot := (hagain (hreattempts ▸ hne)).2
    exact absurd (hback.symm.trans hnot) (by decide)
  · -- the steered directions before the first of the two records count on both sides
    dsimp only at hk
    rw [hbefore, hafter, Nat.mul_add] at hk
    exact Nat.le_of_add_le_add_left hk
  · exact hreattempts.symm ▸ hshrunk

/-! ## All stages -/

/-- The penalty parameter of a stage is not negative, and the next one is not larger. -/
theorem mu_le_of_iterateOnce (laws : Scalar.Shrinks R) (hoptions : run.options.IsValid)
    (hmu : 0 ≤ a.progress.current.mu) (h : run.iterateOnce a = .inl b) :
    0 ≤ b.progress.current.mu ∧ b.progress.current.mu ≤ a.progress.current.mu := by
  obtain ⟨move, μ, s, -, hrun, rfl⟩ := exists_move h
  exact mu_le_of_shrinks laws hoptions hmu hrun

/-- The penalty parameter at the end is not larger than that of the last stage. -/
theorem mu_le_of_result (laws : Scalar.Shrinks R) (hoptions : run.options.IsValid)
    {r : RunResult R n × Session σ R n} (hmu : 0 ≤ a.progress.current.mu)
    (h : run.iterateOnce a = .inr r) :
    0 ≤ r.1.final.mu ∧ r.1.final.mu ≤ a.progress.current.mu := by
  obtain ⟨μ, reason, s, rfl, ⟨rfl, -⟩ | hrun⟩ := ending_cases h
  · exact ⟨hmu, laws.le_refl hmu⟩
  · exact mu_le_of_shrinks laws hoptions hmu hrun

theorem staysAt_initial (env : Environment σ R n) (options : Options R) (world : σ)
    {first : Observation R n} (hshape : first.shape = (0, 0)) :
    StaysAt options.mu0 (.initial env options first world) where
  shape := hshape
  mu_eq := rfl
  step _ h := nomatch h
  tells e he := by
    rcases Array.mem_push.1 he with hcall | rfl
    · obtain rfl := Array.eq_of_mem_singleton hcall
      exact Event.tellsOnly_of_penalties_eq rfl
    · exact fun ν hν ↦ List.mem_singleton.1 hν

/-- Without constraints all stages have the penalty parameter of the first one, and the result has no
other. -/
theorem staysAt_of_path {r : RunResult R n × Session σ R n}
    (hpath : Path run.iterateOnce (a :: as) r) (hshape : run.shape = (0, 0)) (ha : StaysAt μ a) :
    (∀ b ∈ a :: as, StaysAt μ b) ∧ r.1.final.mu = μ ∧ ∀ e ∈ r.2.transcript, e.TellsOnly μ := by
  have hstages := hpath.forall_mem (P := StaysAt μ) (fun b c _ hbc hb ↦ by
    obtain ⟨_, -, -, hc, -⟩ := isAnswered_iterateOnce hbc
    exact hb.iterateOnce hbc (hc.trans hshape)) ha
  obtain ⟨b, hb, hlast⟩ := hpath.exists_last
  exact ⟨hstages, (hstages b hb).result hlast⟩

end RunContext

/-! ## Whole runs -/

variable {env : Environment σ R n} {options : Options R} {x₀ : Vector R n} {world : σ}
    {r : RunResult R n} {s : Session σ R n}

/-- **The penalty parameter along a run.**  A step has the penalty parameter of the iterate it leads
to.  That is the one before, multiplied by a factor for every reattempt and by the factor of steering,
and the latter no more often than the steered directions noted between the two records allow; where
products are exact, as they are over the reals, it is a product of powers.  In any arithmetic where
factors between zero and one do not raise a number, double precision among them, the penalty parameter
never rises, to the end of the run, and is never negative.  Without constraints there is just one, and a
direction that could not be made does not change it. -/
theorem penalty_parameter_shrinks (hrun : minimize env options x₀ world = (.ok r, s)) :
    (∀ (k : Nat) a b, r.history[k]? = some a → r.history[k + 1]? = some b →
      ∃ step, b.step = some step ∧ b.iterate.mu = step.mu ∧
        step.engaged = isEngaged a.iterate.toObservation options.steering.ineqMargin ∧
        (options.search.backtracking = true → step.reattempts = 0) ∧
        ∃ (before between after : List (Event R n)) (shrinks : Nat),
          s.transcript.toList = before ++ .recorded a :: between ++ .recorded b :: after ∧
          (∀ e ∈ between, e.isRecorded = false) ∧
          shrinks ≤ options.steering.maxShrinks * between.countP (·.isSteered) ∧
          (step.engaged = false → shrinks = 0) ∧
          ∀ value : R →ₙ* ℝ, value b.iterate.mu = value a.iterate.mu
            * value (if k = 0 then options.firstReattempts else options.reattempts).factor
              ^ step.reattempts
            * value options.steering.shrinkFactor ^ shrinks) ∧
    (Scalar.Shrinks R →
      (∀ (k : Nat) a b, r.history[k]? = some a → r.history[k + 1]? = some b →
        b.iterate.mu ≤ a.iterate.mu) ∧
      (∀ last, r.history.back? = some last → r.final.mu ≤ last.iterate.mu) ∧
      (∀ record ∈ r.history, 0 ≤ record.iterate.mu) ∧ 0 ≤ r.final.mu) ∧
    ((env.evaluate x₀ world).1.ineq = [] → (env.evaluate x₀ world).1.eq = [] →
      (∀ it ∈ r.iterates, it.mu = options.mu0) ∧
      (∀ record ∈ r.history, ∀ step, record.step = some step → step.mu = options.mu0) ∧
      ∀ e ∈ s.transcript, ∀ μ ∈ e.penalties, μ = options.mu0) ∧
    ∀ (it : IterationContext σ R n) level left (c : Climb R n) t e t',
      it.makeDirection level c.mu t = (.error e, t') →
        ∃ failure c', it.tryLevel level left c t = ((.failed failure, c'), t') ∧ c'.mu = c.mu := by
  obtain ⟨hoptions, -, first, as, hfirst, -, -, hpath⟩ := minimize_eq_ok hrun
  have hfresh := Progress.isFresh_start options first
  refine ⟨fun k a b ha hb ↦ ?_, fun laws ↦ ?_, fun hineq heq ↦ ?_,
    fun it level left c t e t' h ↦ IterationContext.tryLevel_of_error left h⟩
  · obtain ⟨a, -, b, hmem, rfl, rfl, hiteration, hab⟩ :=
      RunContext.exists_stages hpath hfresh.history_eq ha hb
    obtain ⟨step, hstep, hmu, hengaged, hback, before, between, after, shrinks, htranscript,
      hrecorded, hle, hzero, hshrunk⟩ := RunContext.exists_shrunk_between hpath hmem hab
    have hk : a.progress.iteration = k := hiteration.trans (Nat.zero_add k)
    refine ⟨step, hstep, hmu, hengaged, hback, before, between, after, shrinks, htranscript,
      hrecorded, hle, hzero, fun value ↦ ?_⟩
    rw [← hk]
    exact hshrunk.map_eq value
  · have hstages := hpath.forall_mem (P := fun a ↦ 0 ≤ a.progress.current.mu)
      (fun _ _ _ h ha ↦ (RunContext.mu_le_of_iterateOnce laws hoptions ha h).1)
      (laws.nonneg_of_pos hoptions.mu0_pos)
    obtain ⟨last, hmem, hlast⟩ := hpath.exists_last
    have hresult := RunContext.mu_le_of_result laws hoptions (hstages last hmem) hlast
    refine ⟨fun k a b ha hb ↦ ?_, fun record hback ↦ ?_, fun record hrecord ↦ ?_, hresult.1⟩
    · obtain ⟨a, hmem, b, -, rfl, rfl, -, hab⟩ :=
        RunContext.exists_stages hpath hfresh.history_eq ha hb
      exact (RunContext.mu_le_of_iterateOnce laws hoptions (hstages a hmem) hab).2
    · obtain ⟨μ, reason, s', hr⟩ := RunContext.exists_ending hlast
      cases hr
      cases hback.symm.trans Array.back?_push
      exact hresult.2
    · obtain ⟨k, hk⟩ := Array.mem_iff_getElem?.1 hrecord
      obtain ⟨a, ha, rfl⟩ := RunContext.exists_stage hpath hfresh.history_eq hk
      exact hstages a (List.mem_of_getElem? ha)
  · have hshape : first.shape = (0, 0) := Evaluation.shape_of_no_values hfirst hineq heq
    obtain ⟨hstages, hfinal, htells⟩ := RunContext.staysAt_of_path hpath hshape
      (RunContext.staysAt_initial env options world hshape)
    refine ⟨fun it hit ↦ ?_, fun record hrecord step hstep ↦ ?_, htells⟩
    · obtain ⟨a, ha, -, rfl | rfl⟩ := RunContext.exists_stage_of_mem_iterates hpath hfresh hit
      · exact (hstages a ha).mu_eq
      · exact hfinal
    · obtain ⟨k, hk⟩ := Array.mem_iff_getElem?.1 hrecord
      obtain ⟨a, ha, rfl⟩ := RunContext.exists_stage hpath hfresh.history_eq hk
      exact (hstages a (List.mem_of_getElem? ha)).step step hstep

/-- On the ramp the penalty parameter is halved for the only reattempt, and the first step is made with
that. -/
theorem penalty_parameter_shrinks_ramp :
    ∃ r s, minimize ramp (rampOptions true) (.replicate 1 0) () = (.ok r, s) ∧
      ∃ (a b : IterationRecord ℝ 1) (step : StepRecord ℝ) (shrinks : Nat), r.history[0]? = some a ∧
        r.history[1]? = some b ∧ b.step = some step ∧ step.reattempts = 1 ∧ a.iterate.mu = 1 ∧
        b.iterate.mu = 0.5 ∧
        b.iterate.mu = a.iterate.mu * (rampOptions true).firstReattempts.factor ^ step.reattempts
          * (rampOptions true).steering.shrinkFactor ^ shrinks ∧
        b.iterate.mu ≤ a.iterate.mu ∧ 0 ≤ r.final.mu := by
  obtain ⟨r, s, a, b, step, _, hrun, ha, hb, hstart, hhalf, hstep, -, hreattempts, -⟩ :=
    exists_minimize_forcedRamp
  obtain ⟨hsteps, hfalls, -, -⟩ := penalty_parameter_shrinks hrun
  obtain ⟨step', hstep', -, -, -, -, -, -, shrinks, -, -, -, -, hpower⟩ := hsteps 0 a b ha hb
  cases hstep.symm.trans hstep'
  obtain ⟨hnever, -, -, hfinal⟩ := hfalls Scalar.shrinks_real
  exact ⟨r, s, hrun, a, b, step, shrinks, ha, hb, hstep, hreattempts, hstart, hhalf,
    hpower (MulHom.id ℝ), hnever 0 a b ha hb, hfinal⟩

end ExactPenalty
