import ExactPenalty.Proofs.Run.Definite
import ExactPenalty.Proofs.Run.Transcript
import ExactPenalty.Proofs.Search.Trials

/-!
# Every iterate is an answer

An observation comes into a run in one way only: a look-up screens the answer of the problem and lets
it through.  From there it is kept as a trial, moved to, weighed anew with other penalty parameters,
and remembered by the tracker, but it is never changed.  So every iterate of a result is the answer to
a call of the run, at the very point of the iterate.

## What is here

* `Session.calls` — the calls of the problem, each with its answer, as the transcript has them; and
  `Environment.LogsCalls`, a log of them kept by the world, which agrees (`Environment.Logs`).
* `Session.Answered` — an observation is the answer to a call and has passed the screen.  It stays so
  as the transcript grows (`Answered.mono`).
* `IterationContext.answered_of_run_eq_ok` — an iteration moves to an observation that was answered,
  whether its step was accepted or forced, and whatever searches were made before.
* `iterates_are_answers` — all iterates of a result.

Observations of one run differ neither in their dimension, which is part of their type, nor in their
numbers of constraints, so all operands made from them fit together.
-/

set_option autoImplicit false

namespace ExactPenalty

open Session ExactPenalty.Action

variable {σ R : Type} {n : Nat}

/-! ## Calls of the problem -/

/-- The call of the problem that an event notes, with its answer. -/
def Event.call? : Event R n → Option (Vector R n × Evaluation R)
  | evaluated x answer => some (x, answer)
  | _ => none

/-- The calls of the problem so far, each with its answer. -/
def Session.calls (s : Session σ R n) : List (Vector R n × Evaluation R) :=
  s.transcript.toList.filterMap Event.call?

/-- A quantity in the world that logs the calls of the problem with the answers it gave. -/
structure Environment.LogsCalls (env : Environment σ R n)
    (log : σ → List (Vector R n × Evaluation R)) : Prop where
  evaluate : ∀ x w, log (env.evaluate x w).2 = log w ++ [(x, (env.evaluate x w).1)]
  solve : ∀ {m : Nat} (qp : QuadraticProgram R m) w, log (env.solve qp w).2 = log w

/-- An environment that logs its calls. -/
def Environment.logged (env : Environment σ R n) :
    Environment (σ × List (Vector R n × Evaluation R)) R n where
  evaluate x w :=
    ((env.evaluate x w.1).1, (env.evaluate x w.1).2, w.2 ++ [(x, (env.evaluate x w.1).1)])
  solve qp w := ((env.solve qp w.1).1, (env.solve qp w.1).2, w.2)
  eigen := env.eigen
  elapsed w := env.elapsed w.1
  generator := env.generator

theorem Environment.logsCalls_logged (env : Environment σ R n) : env.logged.LogsCalls Prod.snd :=
  ⟨fun _ _ ↦ rfl, fun _ _ ↦ rfl⟩

theorem Event.call?_of_isEvaluated_eq_false {e : Event R n} (he : e.isEvaluated = false) :
    e.call? = none := by
  cases e <;> first | rfl | cases he

theorem Session.calls_note (e : Event R n) (s : Session σ R n) :
    (note e s).2.calls = s.calls ++ e.call?.toList := by
  rw [calls, toList_note, List.filterMap_append]
  cases h : e.call? <;> simp [calls, h]

theorem Session.calls_evaluate (env : Environment σ R n) (x : Vector R n) (s : Session σ R n) :
    (evaluate env x s).2.calls = s.calls ++ [(x, (env.evaluate x s.world).1)] :=
  calls_note (.evaluated x _) _

/-- The transcript keeps up with every log of the calls that the world may keep. -/
def Environment.Logs (env : Environment σ R n) (s s' : Session σ R n) : Prop :=
  ∀ log, env.LogsCalls log → ∀ before,
    log s.world = before ++ s.calls → log s'.world = before ++ s'.calls

namespace Environment.Logs

variable {env : Environment σ R n} {s s' : Session σ R n}

instance instIsPreorder : IsPreorder (Session σ R n) env.Logs where
  refl _ _ _ _ h := h
  trans _ _ _ h₁ h₂ log hlog before h := h₂ log hlog before (h₁ log hlog before h)

theorem note {e : Event R n} (he : e.isEvaluated = false) : Leads env.Logs (note e) := by
  intro s log _ before h
  rw [calls_note, Event.call?_of_isEvaluated_eq_false he, Option.toList_none, List.append_nil]
  exact h

theorem evaluate (x : Vector R n) : Leads env.Logs (Session.evaluate env x) := by
  intro s log hlog before h
  rw [calls_evaluate, ← List.append_assoc, ← h]
  exact hlog.evaluate x s.world

theorem respects (run : RunContext σ R n) : run.Respects run.env.Logs where
  note _ he := .note he
  evaluate x s _ := evaluate x s
  solve qp s _ hlog _ h := (hlog.solve qp s.world).trans h
  draw _ _ _ _ _ h := h

end Environment.Logs

/-! ## Answered observations -/

section Answered

variable [Scalar R]

/-- An observation is the answer to a call of the run, of the given shape and with finite entries
only. -/
def Session.Answered (s : Session σ R n) (shape : Nat × Nat) (o : Observation R n) : Prop :=
  ∃ answer, (o.point, answer) ∈ s.calls ∧ answer.toObservation? o.point = some o ∧
    o.shape = shape ∧ o.isFinite = true

variable {shape : Nat × Nat} {o : Observation R n} {s s' : Session σ R n}

theorem Session.Answered.mono {P : Event R n → Prop} (ho : s.Answered shape o)
    (h : Session.Continues P s s') : s'.Answered shape o := by
  obtain ⟨answer, hcall, hanswer⟩ := ho
  obtain ⟨events, hevents, -⟩ := h
  refine ⟨answer, ?_, hanswer⟩
  rw [calls, hevents, List.filterMap_append]
  exact List.mem_append_left _ hcall

theorem Session.Answered.note (ho : s.Answered shape o) (e : Event R n) :
    (note e s).2.Answered shape o :=
  ho.mono (Session.Continues.note (P := fun _ ↦ True) trivial s)

/-- What a look-up lets through was answered. -/
theorem RunContext.answered_of_lookUp {run : RunContext σ R n} {x : Vector R n}
    (h : run.lookUp x s = (.evaluated o, s')) : s'.Answered run.shape o := by
  obtain ⟨-, hanswer, hshape, hfinite, rfl⟩ := lookUp_eq_evaluated h
  obtain ⟨rfl, -⟩ := Evaluation.eq_of_toObservation?_eq_some hanswer
  refine ⟨_, ?_, hanswer, hshape, hfinite⟩
  rw [calls_evaluate]
  exact List.mem_append_right _ (List.mem_singleton_self _)

namespace IterationContext

variable {it : IterationContext σ R n} {level : Level} {left : Nat} {c c' : Climb R n} {μ μ' : R}
    {d : Direction R n}

theorem answered_lookUp (it : IterationContext σ R n) (x : Vector R n)
    (ho : s.Answered shape o) : (it.lookUp x s).2.Answered shape o :=
  ho.mono (it.respects_continues.lookUp x s)

/-- The trial that a search accepts was answered. -/
theorem answered_of_searchAlong_eq_ok {out : SearchOutcome R n}
    (h : it.searchAlong c d s = ((.ok out, c'), s')) :
    s'.Answered it.shape out.trial.iterate.toObservation := by
  obtain ⟨-, s₁, s₂, hsearch, rfl, -⟩ := searchAlong_eq h
  have hsearched := searched_lineSearch it.lookUp (it.task c' d) it.options.search s₁
  rw [hsearch] at hsearched
  have hanswered := (hsearched.observed_ok (P := fun s o ↦ s.Answered it.shape o)
    RunContext.answered_of_lookUp).2
  exact hanswered.note _

/-- The trial that a failed search keeps was answered. -/
theorem answered_of_searchAlong_eq_error {e : SearchError R n}
    (h : it.searchAlong c d s = ((.error e, c'), s')) :
    ∀ t, e.kept = some t → s'.Answered it.shape t.iterate.toObservation := by
  obtain ⟨-, s₁, s₂, hsearch, rfl, -⟩ := searchAlong_eq h
  have hsearched := searched_lineSearch it.lookUp (it.task c' d) it.options.search s₁
  rw [hsearch] at hsearched
  cases hsearched with
  | failed htried =>
    intro t ht
    have hanswered := (htried.observed (P := fun s o ↦ s.Answered it.shape o)
      RunContext.answered_of_lookUp (fun x ↦ it.answered_lookUp x) t ht).2
    exact hanswered.note _

/-- The trial that a climb keeps was answered. -/
def Keeps (it : IterationContext σ R n) (c : Climb R n) (s : Session σ R n) : Prop :=
  ∀ t, c.lastTrial = some t → s.Answered it.shape t.iterate.toObservation

theorem Keeps.mono {P : Event R n → Prop} (hc : it.Keeps c s) (h : Session.Continues P s s') :
    it.Keeps c s' :=
  fun t ht ↦ (hc t ht).mono h

theorem Keeps.note (hc : it.Keeps c s) (e : Event R n) : it.Keeps c (note e s).2 :=
  fun t ht ↦ (hc t ht).note e

/-- An attempt keeps a trial that was answered, and moves to an observation that was. -/
theorem Keeps.attempted {e : Option (ClimbEnd R n)} (hc : it.Keeps c s)
    (h : it.Attempted level left c s e c' s') :
    it.Keeps c' s' ∧ ∀ move, e = some (.moved move) → s'.Answered it.shape move.target := by
  have hcontinues := it.respects_continues.rel_attempted h
  have hlowered {d : Direction R n} : it.Keeps (c.lowered d) s' := by
    intro t ht
    refine hc.mono hcontinues t ?_
    rw [Climb.lowered] at ht
    split_ifs at ht <;> exact ht
  -- what was kept before an attempt is still kept if no search was made, and given up otherwise
  cases h with
  | qp | degenerate => exact ⟨hc.mono hcontinues, by simp⟩
  | nonDescent => exact ⟨by simp [Keeps], by simp⟩
  | moved _ hs =>
    obtain ⟨rfl, -⟩ := searchAlong_eq hs
    refine ⟨hlowered, ?_⟩
    rintro move ⟨⟩
    exact answered_of_searchAlong_eq_ok hs
  | stopped _ hs | ascending _ hs | unacceptable _ hs | unbounded _ hs =>
    exact ⟨answered_of_searchAlong_eq_error hs, by simp⟩
  | again _ hs =>
    refine ⟨fun t ht ↦ ?_, by simp⟩
    exact (answered_of_searchAlong_eq_error hs t ht).note _

theorem Keeps.climbRound {a b : ClimbStage σ R n} (ha : it.Keeps a.climb a.session)
    (h : it.climbRound a = .inl b) : it.Keeps b.climb b.session := by
  have hround := it.round_climbRound a
  rw [h] at hround
  cases hround with
  | again hattempt => exact (ha.attempted hattempt).1
  | escalated hattempt =>
    exact (ha.attempted hattempt).1.note _

/-- What holds of an attempt holds of the climb that it ends. -/
theorem Keeps.climbFrom {ladder : Ladder} {e : ClimbEnd R n} (hc : it.Keeps c s)
    (h : it.climbFrom ladder c s = ((e, c'), s')) :
    it.Keeps c' s' ∧ ∀ move, e = .moved move → s'.Answered it.shape move.target := by
  obtain ⟨a, s₁, ha, hattempt, hend⟩ := exists_last_attempt
    (P := fun a ↦ it.Keeps a.climb a.session) (fun _ _ hab ha ↦ ha.climbRound hab) hc h
  obtain ⟨hkeeps, hmoved⟩ := ha.attempted hattempt
  rcases hend with ⟨⟨f, rfl⟩, -, rfl⟩ | ⟨-, rfl⟩
  · exact ⟨hkeeps.note _, fun _ h ↦ nomatch h⟩
  · exact ⟨hkeeps, fun move hmove ↦ hmoved move (congrArg some hmove)⟩

/-- **An iteration moves to an observation that was answered**, by an accepted step, by a step that is
forced to a trial of an earlier search, or by one that is forced to a point looked up for it. -/
theorem answered_of_run_eq_ok {move : Move R n} (h : it.run μ s = ((.ok move, μ'), s')) :
    s'.Answered it.shape move.target := by
  have hstart : it.Keeps (.start μ) s := fun _ h ↦ nomatch h
  obtain ⟨c, -, hclimb | ⟨failure, reason, s₁, hclimb, -, hforce⟩⟩ := run_eq_ok h
  · exact (hstart.climbFrom hclimb).2 move rfl
  · have hkeeps := (hstart.climbFrom hclimb).1
    obtain ⟨d, -, ⟨trial, htrial, rfl, rfl⟩ | ⟨-, o, s₂, hlook, rfl, rfl⟩⟩ := force_eq_ok hforce
    · exact (hkeeps trial htrial).note _
    · have hanswered : s₂.Answered it.shape o := RunContext.answered_of_lookUp hlook
      exact hanswered.note _

end IterationContext

/-! ## The iterates of a run -/

namespace RunContext

variable {run : RunContext σ R n} {a b : Stage σ R n}

/-- The current iterate of a stage was answered. -/
def IsAnswered (run : RunContext σ R n) (a : Stage σ R n) : Prop :=
  a.session.Answered run.shape a.progress.current.toObservation

theorem isAnswered_iterateOnce (h : run.iterateOnce a = .inl b) : run.IsAnswered b := by
  obtain ⟨move, μ, s, -, hrun, rfl⟩ := exists_move h
  have htarget : s.Answered run.shape move.target := IterationContext.answered_of_run_eq_ok hrun
  exact htarget.note _

theorem isAnswered_initial (env : Environment σ R n) (options : Options R) (world : σ)
    {first : Observation R n}
    (hfirst : (env.evaluate first.point world).1.toObservation? first.point = some first)
    (hfinite : first.isFinite = true) :
    IsAnswered ⟨env, options, first.shape⟩ (.initial env options first world) :=
  ⟨(env.evaluate first.point world).1, List.mem_singleton_self _, hfirst, rfl, hfinite⟩

/-- Every iterate of a result was answered. -/
theorem answered_of_path {as : List (Stage σ R n)} {r : RunResult R n × Session σ R n}
    (hpath : Path run.iterateOnce (a :: as) r) (hstart : a.progress.IsFresh)
    (ha : run.IsAnswered a) :
    ∀ it ∈ r.1.iterates, r.2.Answered run.shape it.toObservation := by
  have hstages := hpath.forall_mem (P := run.IsAnswered)
    (fun _ _ _ h _ ↦ isAnswered_iterateOnce h) ha
  intro it hit
  obtain ⟨b, hb, hsame, -⟩ := exists_stage_of_mem_iterates hpath hstart hit
  have hanswered := (hstages b hb).mono (continues_of_path hpath hb)
  rwa [← hsame] at hanswered

end RunContext

variable {env : Environment σ R n} {options : Options R} {x₀ : Vector R n} {world : σ}
    {r : RunResult R n}

/-- **Every iterate is an answer.**  The calls of a run, as its transcript has them, are those that
the world saw.  The first one asks at the starting point, and its answer says how many constraints
there are.  Every iterate that the run yields is the answer to a call at the very point of the
iterate, weighed with its own penalty parameter; and each of these answers has the sizes of the first
one and no entry that is not finite. -/
theorem iterates_are_answers (hrun : minimize env options x₀ world = (.ok r, s)) :
    (∀ log, env.LogsCalls log → log s.world = log world ++ s.calls) ∧
    ∃ first shape, s.calls.head? = some (x₀, first) ∧ first.HasShape n shape ∧
      ∀ it ∈ r.iterates, ∃ answer, (it.point, answer) ∈ s.calls ∧
        (answer.toObservation? it.point).map (·.weighed it.mu) = some it ∧
        answer.HasShape n shape ∧ answer.IsFinite := by
  obtain ⟨-, -, first, as, hfirst, hfinite, rfl, hpath⟩ := minimize_eq_ok hrun
  have hlogs := ((Environment.Logs.respects _).rel_of_path hpath List.mem_cons_self).2
  obtain ⟨events, hevents, -⟩ := RunContext.continues_of_path hpath List.mem_cons_self
  have hanswered := RunContext.answered_of_path hpath (Progress.isFresh_start options first)
    (RunContext.isAnswered_initial env options world hfirst hfinite)
  have hcall : (Stage.initial env options first world).session.calls
      = [(first.point, (env.evaluate first.point world).1)] := rfl
  refine ⟨fun log hlog ↦ ?_, (env.evaluate first.point world).1, first.shape, ?_,
    Evaluation.hasShape_of_toObservation?_eq_some hfirst, fun it hit ↦ ?_⟩
  · refine hlogs log hlog (log world) ?_
    rw [hcall]
    exact hlog.evaluate first.point world
  · have hcalls : s.calls = (Stage.initial env options first world).session.calls
        ++ events.filterMap Event.call? := by
      rw [calls, hevents, List.filterMap_append]
      rfl
    rw [hcalls, hcall]
    rfl
  · obtain ⟨answer, hmem, hanswer, hshape, hentries⟩ := hanswered it hit
    have hsizes := Evaluation.hasShape_of_toObservation?_eq_some hanswer
    rw [hshape] at hsizes
    refine ⟨answer, hmem, ?_, hsizes,
      Evaluation.isFinite_of_toObservation?_eq_some hanswer hentries⟩
    rw [hanswer]
    rfl

end Answered

/-- The final iterate of a run down the parabola is an answer in the log of the parabola. -/
theorem iterates_are_answers_parabola :
    ∃ r s, minimize parabola.logged .standard (.replicate 1 1) ((), []) = (.ok r, s) ∧
      ∃ answer, (r.final.point, answer) ∈ s.world.2 ∧
        answer.toObservation? r.final.point = some r.final.toObservation := by
  obtain ⟨r, s, hrun⟩ : ∃ r s,
      minimize parabola.logged .standard (.replicate 1 1) ((), []) = (.ok r, s) :=
    exists_minimize_eq_ok Options.isValid_standard one_ne_zero (toObservation?_parabola _)
      (isFinite_parabolaAt _) (Linear.allFinite_real _)
  obtain ⟨hlog, first, shape, -, -, hiterates⟩ := iterates_are_answers hrun
  obtain ⟨answer, hcall, hanswer, -, -⟩ :=
    hiterates r.final (List.mem_append_right _ List.mem_cons_self)
  refine ⟨r, s, hrun, answer, ?_, ?_⟩
  · rw [hlog _ parabola.logsCalls_logged]
    exact hcall
  · obtain ⟨o, ho, hweighed⟩ := Option.map_eq_some_iff.1 hanswer
    rw [ho, ← hweighed]
    rfl

end ExactPenalty
