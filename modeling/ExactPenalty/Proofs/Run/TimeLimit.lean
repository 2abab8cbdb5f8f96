import ExactPenalty.Proofs.InStep
import ExactPenalty.Proofs.Run.Climb
import ExactPenalty.Proofs.Run.Iterations
import ExactPenalty.Proofs.Run.Session
import ExactPenalty.Proofs.Search.Refusals

/-!
# The time limit

A run asks for the time in two places: before it climbs, and before every look-up.  Where the limit is
reached it ends at once, for this reason; where it is not, the time has no say in what the run does.  So a
run with a time limit is the run without it, cut short (`minimize_untimed`): it passes the first iterates
of that run, and has its result unless it ends for want of time.

The two runs are compared from the same state, so nothing has to be said of how their states are related;
every part of an iteration either does the same in both of them, or comes to the limit in the first
(`Action.CutsShort`).
-/

set_option autoImplicit false

namespace ExactPenalty

open Session ExactPenalty.Action

variable {σ R : Type} {n : Nat}

/-! ## Without the limit -/

/-- The same options without the time limit. -/
def Options.untimed (o : Options R) : Options R :=
  { o with budget := { o.budget with seconds := none } }

/-- The same run without the time limit. -/
def RunContext.untimed (run : RunContext σ R n) : RunContext σ R n :=
  { run with options := run.options.untimed }

@[inherit_doc RunContext.untimed]
def IterationContext.untimed (it : IterationContext σ R n) : IterationContext σ R n :=
  { it with toRunContext := it.toRunContext.untimed }

/-- The time limit is reached. -/
def RunContext.IsLate (run : RunContext σ R n) (s : Session σ R n) : Prop :=
  ¬ BelowCap (run.env.elapsed s.world) run.options.budget.seconds

theorem Options.untimed_of_seconds {o : Options R} (h : o.budget.seconds = none) : o.untimed = o := by
  obtain ⟨mu0, stopping, ⟨seconds, evaluations⟩⟩ := o
  cases h
  rfl

namespace RunContext

variable {run : RunContext σ R n} {s : Session σ R n}

theorem exhausted?_of_isLate (h : run.IsLate s) : run.exhausted? s = some .timeLimit := if_pos h

theorem stopReason_of_isLate (h : run.IsLate s) : run.stopReason s = .timeLimit := by
  rw [stopReason, exhausted?_of_isLate h]
  rfl

/-- In time the limit has no say. -/
theorem exhausted?_untimed (h : ¬ run.IsLate s) : run.exhausted? s = run.untimed.exhausted? s := by
  have hnever : run.untimed.exhausted? s
      = if ¬ BelowCap s.evaluations run.options.budget.evaluations then some .evaluationLimit else none :=
    if_neg (not_not.2 trivial)
  rw [hnever]
  exact if_neg h

end RunContext

variable [Scalar R]

/-! ## Look-ups and searches -/

theorem RunContext.lookUp_of_isLate {run : RunContext σ R n} {s : Session σ R n} (h : run.IsLate s)
    (x : Vector R n) : run.lookUp x s = (.stopped, s) := by
  rw [lookUp, bind_apply, get_apply]
  dsimp only
  rw [exhausted?_of_isLate h]
  rfl

theorem RunContext.cutsShort_lookUp (run : RunContext σ R n) (x : Vector R n) :
    CutsShort (fun r ↦ r.1 = .stopped ∧ run.IsLate r.2) (run.lookUp x) (run.untimed.lookUp x) := by
  intro s
  by_cases hlate : run.IsLate s
  · rw [lookUp_of_isLate hlate]
    exact .inr ⟨rfl, hlate⟩
  · rw [lookUp, lookUp, bind_apply, bind_apply, get_apply]
    dsimp only
    rw [exhausted?_untimed hlate]
    exact .inl rfl

/-- A search whose look-ups are only cut short is only cut short. -/
theorem cutsShort_lineSearch {S : Type} {late : S → Prop} {ask ask' : Oracle S R n}
    (hask : ∀ x, CutsShort (fun r ↦ r.1 = .stopped ∧ late r.2) (ask x) (ask' x))
    (task : SearchTask R n) (o : SearchOptions R) :
    CutsShort (fun r ↦ r.1.IsStopped ∧ late r.2) (lineSearch ask task o) (lineSearch ask' task o) := by
  intro s
  let post (r r' : SearchResult R n × S) : Prop := r = r' ∨ (r.1.IsStopped ∧ late r.2)
  show post _ _
  refine together_lineSearch (fun x s t (hst : s = t) ↦ ?_) (fun _ _ _ hst ↦ .inl (congrArg _ hst)) rfl
  subst hst
  rcases hask x s with hsame | ⟨hstopped, hlate⟩
  · rw [hsame]
    exact .inr (.inr ⟨.inl rfl, rfl⟩)
  · exact .inl ⟨_, Prod.ext hstopped rfl, fun _ _ hresult ↦ .inr ⟨hresult, hlate⟩⟩

/-! ## Iterations -/

namespace IterationContext

variable (it : IterationContext σ R n)

theorem cutsShort_searchAlong (c : Climb R n) (d : Direction R n) :
    CutsShort (fun r ↦ r.1.1.IsStopped ∧ it.IsLate r.2) (it.searchAlong c d)
      (it.untimed.searchAlong c d) := by
  have hsearch (task : SearchTask R n) (c : Climb R n) :
      CutsShort (fun r ↦ r.1.1.IsStopped ∧ it.IsLate r.2)
        (do
          let result ← lineSearch it.lookUp task it.options.search
          note (.searched task result)
          return (result, c))
        (do
          let result ← lineSearch it.untimed.lookUp task it.options.search
          note (.searched task result)
          return (result, c)) :=
    (cutsShort_lineSearch it.cutsShort_lookUp task it.options.search).bind (fun _ _ h ↦ h) fun _ ↦ .refl _
  rw [searchAlong, searchAlong]
  dsimp only
  split_ifs
  · exact .bind_same fun _ ↦ hsearch _ _
  · exact hsearch _ _

/-- An attempt that is cut off has met the time limit. -/
theorem cutsShort_tryOnce (level : Level) (left : Nat) (c : Climb R n) :
    CutsShort (fun r ↦ r.1.1 = some (.stopped .timeLimit)) (it.tryOnce level left c)
      (it.untimed.tryOnce level left c) := by
  rw [tryOnce, tryOnce]
  refine .bind_same (x := it.makeDirection level c.mu) fun attempt ↦ ?_
  rcases attempt with (e | d | _) | d
  · exact .refl _
  · exact .refl _
  · exact .refl _
  refine (it.cutsShort_searchAlong c d).bind ?_ fun answer ↦ ?_
  · rintro ⟨r, c'⟩ s ⟨⟨e, rfl, hreason⟩, hlate⟩
    dsimp only
    rw [hreason]
    exact congrArg (fun reason ↦ some (ClimbEnd.stopped reason)) (RunContext.stopReason_of_isLate hlate)
  rcases answer with ⟨e | out, c'⟩
  · dsimp only
    cases e.reason with
    | budgetExhausted =>
      intro s
      by_cases hlate : it.IsLate s
      · exact .inr (congrArg (fun reason ↦ some (ClimbEnd.stopped reason))
          (RunContext.stopReason_of_isLate hlate))
      · refine .inl (congrArg (fun reason ↦ ((some (ClimbEnd.stopped reason), c'.searched d e), s)) ?_)
        rw [RunContext.stopReason, RunContext.exhausted?_untimed hlate]
        rfl
    | _ => exact .refl _
  · exact .refl _

theorem cutsShort_climbFrom (ladder : Ladder) (c : Climb R n) :
    CutsShort (fun r ↦ r.1.1 = .stopped .timeLimit) (it.climbFrom ladder c)
      (it.untimed.climbFrom ladder c) := by
  intro s
  refine Ends.cutsShort (p := fun r ↦ r.1.1 = .stopped .timeLimit) (fun a ↦ ?_)
    (it.ends_climbFrom ladder c s) (it.untimed.ends_climbFrom ladder c s)
  rw [climbRound, climbRound]
  rcases it.cutsShort_tryOnce a.ladder.level a.left a.climb a.session with hsame | hcut
  · rw [hsame]
    exact .inl rfl
  · rcases htry : it.tryOnce a.ladder.level a.left a.climb a.session with ⟨⟨e, c⟩, s⟩
    rw [htry] at hcut
    cases hcut
    exact .inr ⟨_, rfl, rfl⟩

theorem cutsShort_force (c : Climb R n) (reason : Termination) :
    CutsShort (fun r ↦ r.1 = .error .timeLimit) (it.force c reason) (it.untimed.force c reason) := by
  rw [force, force]
  cases c.lastDirection with
  | none => exact .refl _
  | some d =>
    dsimp only
    cases c.lastTrial with
    | some trial => exact .refl _
    | none =>
      refine (it.cutsShort_lookUp _).bind ?_ fun answer ↦ ?_
      · rintro _ s ⟨rfl, hlate⟩
        exact congrArg Except.error (RunContext.stopReason_of_isLate hlate)
      · cases answer with
        | evaluated o => exact .refl _
        | rejected => exact .refl _
        | stopped =>
          intro s
          by_cases hlate : it.IsLate s
          · exact .inr (congrArg Except.error (RunContext.stopReason_of_isLate hlate))
          · refine .inl (congrArg (fun reason ↦ (Except.error reason, s)) ?_)
            rw [RunContext.stopReason, RunContext.exhausted?_untimed hlate]
            rfl

/-- **The step of an iteration does not depend on the time limit**, unless the limit prevents it. -/
theorem cutsShort_run (μ : R) :
    CutsShort (fun r ↦ r.1.1 = .error .timeLimit) (it.run μ) (it.untimed.run μ) := by
  rw [run, run]
  refine (it.cutsShort_climbFrom _ _).bind ?_ fun answer ↦ ?_
  · rintro ⟨_, c⟩ s rfl
    rfl
  rcases answer with ⟨move | failure | reason, c⟩
  · exact .refl _
  · dsimp only
    have hforces : it.untimed.options.forceMovement = it.options.forceMovement := rfl
    rw [hforces]
    split_ifs
    · exact (it.cutsShort_force c _).bind (fun _ _ h ↦ h) fun _ ↦ .refl _
    · exact .refl _
  · exact .refl _

end IterationContext

/-! ## Runs -/

namespace RunContext

variable (run : RunContext σ R n)

/-- An iteration comes to what it comes to without the time limit, or ends the run for want of time. -/
theorem iterateOnce_untimed (a : Stage σ R n) :
    run.iterateOnce a = run.untimed.iterateOnce a ∨
      ∃ r, run.iterateOnce a = .inr r ∧ r.1.termination = .timeLimit := by
  have htest : run.untimed.test a = run.test a := rfl
  rw [iterateOnce, iterateOnce, htest]
  cases run.test a with
  | some reason => exact .inl rfl
  | none =>
    dsimp only
    split_ifs
    · exact .inl rfl
    by_cases hlate : run.IsLate (run.entered a)
    · rw [exhausted?_of_isLate hlate]
      exact .inr ⟨_, rfl, rfl⟩
    have hentered : run.untimed.entered a = run.entered a := rfl
    rw [hentered, ← exhausted?_untimed hlate]
    cases run.exhausted? (run.entered a) with
    | some reason => exact .inl rfl
    | none =>
      have hclimber : run.untimed.climber a = (run.climber a).untimed := rfl
      dsimp only
      rw [hclimber]
      rcases (run.climber a).cutsShort_run a.progress.current.mu (run.entered a) with hsame | hcut
      · rw [hsame]
        exact .inl rfl
      · rcases hrun : (run.climber a).run a.progress.current.mu (run.entered a) with ⟨⟨e, μ⟩, s⟩
        rw [hrun] at hcut
        cases hcut
        exact .inr ⟨_, rfl, rfl⟩

/-- The history of a run is that of the run without the time limit, as far as it goes. -/
theorem history_untimed {a : Stage σ R n} {as bs : List (Stage σ R n)}
    {r r' : RunResult R n × Session σ R n} (h : Path run.iterateOnce (a :: as) r)
    (h' : Path run.untimed.iterateOnce (a :: bs) r') :
    r.1.history.toList <+: r'.1.history.toList ∧ (r = r' ∨ r.1.termination = .timeLimit) := by
  obtain ⟨hbegins, hend⟩ :=
    Path.cutsShort (p := fun r ↦ r.1.termination = .timeLimit) run.iterateOnce_untimed h h'
  have hrecord : run.untimed.record = run.record := rfl
  rw [history_of_path h, history_of_path h', hrecord, List.prefix_append_right_inj]
  exact ⟨(List.cons_prefix_cons.2 ⟨rfl, hbegins⟩).map _, hend.imp_left And.right⟩

end RunContext

/-- **A run with a time limit is the run without it, cut short**: it has the same result, or it ends for
want of time, and then its history is the beginning of that of the other. -/
theorem minimize_untimed {options : Options R} (hoptions : options.IsValid) (env : Environment σ R n)
    (x₀ : Vector R n) (world : σ) :
    minimize env options x₀ world = minimize env options.untimed x₀ world ∨
      ∃ r s r' s', minimize env options x₀ world = (.ok r, s) ∧
        minimize env options.untimed x₀ world = (.ok r', s') ∧ r.termination = .timeLimit ∧
        r.history.toList <+: r'.history.toList := by
  have huntimed : options.untimed.IsValid := { hoptions with }
  let start : Session σ R n := .start (env.generator options.seed) world
  show runFrom env options x₀ start = runFrom env options.untimed x₀ start ∨
    ∃ r s r' s', runFrom env options x₀ start = (.ok r, s) ∧
      runFrom env options.untimed x₀ start = (.ok r', s') ∧ r.termination = .timeLimit ∧ _
  rw [runFrom, runFrom, Options.validate_eq_ok_iff.2 ⟨rfl, hoptions⟩,
    Options.validate_eq_ok_iff.2 ⟨rfl, huntimed⟩]
  dsimp only
  split_ifs
  · exact .inl rfl
  rw [bind_apply, bind_apply]
  cases (Session.evaluate env x₀ start).1.toObservation? x₀ with
  | none => exact .inl rfl
  | some first =>
    dsimp only
    split_ifs
    · let run : RunContext σ R n := ⟨env, options, first.shape⟩
      let a : Stage σ R n :=
        { left := options.stopping.maxIterations
          progress := .start options first
          session := (note (.started first.shape options.mu0) (Session.evaluate env x₀ start).2).2 }
      obtain ⟨as, has⟩ := run.ends_iterateFrom a
      obtain ⟨bs, hbs⟩ := run.untimed.ends_iterateFrom a
      obtain ⟨hbegins, hsame | htime⟩ := run.history_untimed has hbs
      · exact .inl (congrArg (Prod.map Except.ok id) hsame)
      · exact .inr ⟨_, _, _, _, rfl, rfl, htime, hbegins⟩
    · exact .inl rfl

end ExactPenalty
