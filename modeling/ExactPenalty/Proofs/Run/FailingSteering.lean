import ExactPenalty.Proofs.Run.Failures
import ExactPenalty.Proofs.Run.RandomDirections
import ExactPenalty.Proofs.Run.TimeLimit
import ExactPenalty.Proofs.Run.Unsteered

/-!
# Runs whose steering fails

Where a solver has no answer to any program over a box, an attempt at a steering rung asks for one such
program and fails (`IterationContext.tryOnce_of_failsOnBoxes`).  It leaves the climb as it was, and all of
the session but the world and the transcript; so the climb goes on as if it had begun one rung higher
(`IterationContext.climbFrom_of_failsOnBoxes`).

Hence it makes no difference how many of the steering rungs are permitted, as long as a plain rung is:
without a time limit every such run has the result of the one that permits none of them.  But the programs
take time.  A run with a time limit is the run without it, cut short (`minimize_untimed`), so under a limit
the runs take the same steps until one of them ends for want of time; and one may when the other does not
(`failing_steering_costs_time`).
-/

set_option autoImplicit false

namespace ExactPenalty

open Linear Matrix Session ExactPenalty.Action

variable {σ R : Type} {n : Nat}

/-! ## Rungs that fail -/

/-- Below the plain rungs the failure of the first rung leads to the start of a ladder without it. -/
theorem Ladder.climb_start {o : LadderOptions} (hmin : o.min < 2) (hmax : 2 ≤ o.max) :
    (start o true).level.usesSteering = true ∧ (start o true).next ≠ .exhausted ∧
      (start o true).climb.2 = start { o with min := o.min + 1 } true := by
  obtain ⟨min, max, limit⟩ := o
  dsimp only at hmin hmax
  have hnext : (start ⟨min, max, limit⟩ true).next
      = .escalated (start ⟨min + 1, max, limit⟩ true).level := by
    interval_cases min
    · exact if_pos (show 1 ≤ max by omega)
    · exact if_pos hmax
  refine ⟨?_, by rw [hnext]; exact nofun, ?_⟩
  · interval_cases min <;> rfl
  · show after _ (next _) = _
    rw [hnext]
    interval_cases min <;> rfl

namespace IterationContext

variable [Scalar R] {it : IterationContext σ R n} {level : Level}

/-- An attempt at a steering rung does nothing but ask for a program that is not solved. -/
theorem tryOnce_of_failsOnBoxes (hboxes : QpService.FailsOnBoxes it.env.solve)
    (hengaged : it.engaged = true) (hlevel : level.usesSteering = true) (left : Nat) (c : Climb R n)
    (s : Session σ R n) :
    ∃ (m : Nat) (p : QuadraticProgram R m) (s' : Session σ R n), p.IsBoxed ∧
      it.tryOnce level left c s = ((some (.failed .qp), c), s') ∧
      s'.world = (it.env.solve p s.world).2 ∧ s'.evaluations = s.evaluations ∧
      s'.generator = s.generator := by
  obtain ⟨e, m, p, hp, hattempt⟩ := DirectionContext.attempt_of_failsOnBoxes hboxes hengaged hlevel
    it.options c.mu s.generator s.world
  have hdirection : it.makeDirection level c.mu s
      = (.error (.qp e), (it.makeDirection level c.mu s).2) :=
    Prod.ext (congrArg (·.1.1.result) hattempt) rfl
  refine ⟨m, p, (it.makeDirection level c.mu s).2, hp, ?_, congrArg Prod.snd hattempt, rfl,
    congrArg (·.1.2) hattempt⟩
  rw [tryOnce, bind_apply, hdirection]
  rfl

/-- **After the failure of a steering rung a climb goes on as if it had begun on the next one.** -/
theorem climbFrom_of_failsOnBoxes (hboxes : QpService.FailsOnBoxes it.env.solve)
    (hengaged : it.engaged = true) {l : Ladder} (hlevel : l.level.usesSteering = true)
    (hnext : l.next ≠ .exhausted) (c : Climb R n) (s : Session σ R n) :
    ∃ (m : Nat) (p : QuadraticProgram R m) (s' : Session σ R n), p.IsBoxed ∧
      it.climbFrom l c s = it.climbFrom l.climb.2 c s' ∧
      s'.world = (it.env.solve p s.world).2 ∧ s'.evaluations = s.evaluations ∧
      s'.generator = s.generator := by
  obtain ⟨m, p, s', hp, htry, hs'⟩ := tryOnce_of_failsOnBoxes hboxes hengaged hlevel
    it.reattempts.limit c s
  refine ⟨m, p, (note (.failed l l.next) s').2, hp, ?_, hs'⟩
  rw [climbFrom_eq, climbFrom_eq, climbOn_apply, climbRound, htry]
  dsimp only
  rw [if_neg hnext]
  rfl

end IterationContext

/-! ## Iterations -/

namespace Environment.AnswersAlike

variable [Scalar R] {same : σ → σ → Prop} {it : IterationContext σ R n}
    (h : it.env.AnswersAlike it.options.budget.seconds same)
    (hboxes : QpService.FailsOnBoxes it.env.solve)
    (hkept : ∀ {m : Nat} (p : QuadraticProgram R m) w w', p.IsBoxed → same w w' →
      same (it.env.solve p w).2 w')
include h hboxes hkept

/-- Where steering is engaged, a climb from a steering rung ends like the climb from the lowest plain
rung. -/
theorem mirrors_climbFrom_two (hengaged : it.engaged = true) {o : LadderOptions} (hmin : o.min ≤ 2)
    (hmax : 2 ≤ o.max) (o' : LadderOptions) (c : Climb R n) :
    Mirrors (Session.Alike same) (Prod.map (ClimbEnd.relabelled .none) (Climb.relabelled .none))
      (it.climbFrom (.start o true) c)
      ((it.withLadder o').climbFrom (.start { o with min := 2 } true) (c.relabelled .none)) := by
  obtain ⟨rungs, hrungs⟩ := Nat.exists_eq_add_of_le hmin
  -- on the steering rungs that are permitted: each of them fails, and one less is left
  induction rungs generalizing o with
  | zero =>
    obtain ⟨min, max, limit⟩ := o
    obtain rfl : min = 2 := hrungs.symm
    have hladders := Ladder.climbsAlike_of_two_le it.engaged
    exact h.mirrors_climbFrom .none hladders ⟨rfl, le_rfl⟩ o' c
  | succ rungs ih =>
    intro s t hst
    obtain ⟨hlevel, hnext, hclimb⟩ := Ladder.climb_start (o := o) (by omega) hmax
    obtain ⟨m, p, s', hp, hsame, hworld, hevaluations, hgenerator⟩ :=
      IterationContext.climbFrom_of_failsOnBoxes hboxes hengaged hlevel hnext c s
    rw [hsame, hclimb]
    refine ih (o := { o with min := o.min + 1 }) (by dsimp only; omega) hmax (by dsimp only; omega)
      s' t ⟨?_, ?_, ?_⟩
    · rw [hworld]
      exact hkept p _ _ hp hst.world
    · rw [hevaluations, hst.evaluations]
    · rw [hgenerator, hst.generator]

/-- **Iterations make the step that they make without the steering rungs.** -/
theorem mirrors_run_two (hmin : it.options.ladder.min ≤ 2) (hmax : 2 ≤ it.options.ladder.max) (μ : R) :
    Mirrors (Session.Alike same) (Prod.map (Except.map (Move.relabelled .none)) id) (it.run μ)
      ((it.withLadder { it.options.ladder with min := 2 }).run μ) := by
  cases hengaged : it.engaged with
  | true =>
    have hclimb := h.mirrors_climbFrom_two hboxes hkept hengaged hmin hmax
      { it.options.ladder with min := 2 } (.start μ)
    rw [← hengaged] at hclimb
    exact h.mirrors_run .none _ μ hclimb
  | false =>
    obtain ⟨hstart, hplain⟩ := Ladder.start_max_two (hmin.trans (by decide)) hmax
    rw [show Nat.max it.options.ladder.min 2 = 2 from Nat.max_eq_right hmin] at hstart
    refine h.mirrors_run_of_start .none (Ladder.climbsAlike_of_two_le _) ?_ μ
    rw [hengaged]
    exact ⟨hstart, hplain⟩

end Environment.AnswersAlike

/-! ## Whole runs -/

variable [Scalar R] {env : Environment σ R n} {options : Options R} {x₀ : Vector R n} {world world' : σ}

/-- Where a plain rung is permitted, no run ends for a program without an answer. -/
theorem ladderMax_le_of_qpFailure {r : RunResult R n} {s : Session σ R n}
    (hrun : minimize env options x₀ world = (.ok r, s)) (h : r.termination = .qpFailure) :
    options.ladder.max ≤ 1 := by
  obtain ⟨hoptions, -, first, as, -, -, -, hpath⟩ := minimize_eq_ok hrun
  obtain ⟨a, -, hlast⟩ := hpath.exists_last
  obtain ⟨failure, -, -, -, hreason, -, -, -, -, hqp, -⟩ :=
    RunContext.exists_failure hoptions hlast (h ▸ rfl)
  have hfailure := failure.failure?_termination
    (r.final.isFeasible options.stopping.ineqTol options.stopping.eqTol)
  rw [← hreason, h] at hfailure
  cases hfailure
  exact (hqp rfl).2

/-- Without a time limit the run that permits no steering rung has the result of every run that differs from
it in that. -/
theorem minimize_ladderMin_untimed
    (hevaluate : ∀ x w w', (env.evaluate x w).1 = (env.evaluate x w').1)
    (hsimplex : ∀ {m : Nat} (p : QuadraticProgram R m) w w', p.feasible = .simplex →
      (env.solve p w).1 = (env.solve p w').1)
    (hboxes : QpService.FailsOnBoxes env.solve) (hoptions : options.IsValid) (hmin : options.ladder.min ≤ 2)
    (hmax : 2 ≤ options.ladder.max) (x₀ : Vector R n) (world world' : σ) :
    (minimize env { options.untimed with ladder := { options.ladder with min := 2 } } x₀ world').1
      = (minimize env options.untimed x₀ world).1 := by
  -- no world is told from another one, so nothing has to be said of what the programs do to it
  have henv : env.AnswersAlike options.untimed.budget.seconds fun _ _ ↦ True :=
    { evaluate := fun x w w' _ ↦ ⟨hevaluate x w' w, trivial⟩
      simplex := fun p hp w w' _ ↦ ⟨hsimplex p w' w hp, trivial⟩
      belowCap := fun _ _ _ ↦ Iff.rfl }
  have huntimed : options.untimed.IsValid := { hoptions with }
  have hplain : ({ options.untimed with ladder := { options.ladder with min := 2 } } : Options R).IsValid :=
    { hoptions with
      ladderMin_le := (show 2 ≤ 4 by decide)
      ladderMin_le_max := hmax }
  refine (henv.minimize_relabelled .none trivial huntimed hplain fun shape p m _ _ ↦ ?_).trans
    (RunResult.map_relabelled_none _)
  exact Environment.AnswersAlike.mirrors_run_two henv hboxes (fun _ _ _ _ _ ↦ trivial) hmin hmax
    p.current.mu

/-- **Steering that fails is steering left out**, but for the time that it takes.  For a problem that is a
function of the point and a solver without answers to programs over boxes, whose answers to programs over
the simplex are a function of the program, two runs that permit a plain rung, and differ in the steering
rungs that they permit besides, have the same result, whatever state of the world they begin in; unless
there is a time limit, and one of them ends for want of time after the first iterates of the other.  None
of them ends for a program without an answer. -/
theorem failing_steering_is_left_out
    (hevaluate : ∀ x w w', (env.evaluate x w).1 = (env.evaluate x w').1)
    (hsimplex : ∀ {m : Nat} (p : QuadraticProgram R m) w w', p.feasible = .simplex →
      (env.solve p w).1 = (env.solve p w').1)
    (hboxes : QpService.FailsOnBoxes env.solve) (hoptions : options.IsValid)
    (hmin : options.ladder.min ≤ 2) (hmax : 2 ≤ options.ladder.max) {min : Nat} (hmin' : min ≤ 2) :
    let options' := { options with ladder := { options.ladder with min } }
    ((minimize env options' x₀ world').1 = (minimize env options x₀ world).1 ∨
      options.budget.seconds ≠ none ∧ ∃ r r', (minimize env options x₀ world).1 = .ok r ∧
        (minimize env options' x₀ world').1 = .ok r' ∧
        (r.termination = .timeLimit ∧ r.history.toList <+: r'.history.toList ∨
          r'.termination = .timeLimit ∧ r'.history.toList <+: r.history.toList)) ∧
    ∀ r, (minimize env options x₀ world).1 = .ok r ∨ (minimize env options' x₀ world').1 = .ok r →
      r.termination ≠ .qpFailure := by
  intro options'
  have hoptions' : options'.IsValid :=
    { hoptions with
      ladderMin_le := hmin'.trans (by decide)
      ladderMin_le_max := hmin'.trans hmax }
  -- both runs are compared with the one that permits no steering rung
  have huntimed : (minimize env options'.untimed x₀ world').1
      = (minimize env options.untimed x₀ world).1 :=
    (minimize_ladderMin_untimed hevaluate hsimplex hboxes hoptions' hmin' hmax x₀ world' world).symm.trans
      (minimize_ladderMin_untimed hevaluate hsimplex hboxes hoptions hmin hmax x₀ world world)
  refine ⟨?_, fun r hrun hqp ↦ ?_⟩
  · by_cases hseconds : options.budget.seconds = none
    · rw [Options.untimed_of_seconds hseconds,
        Options.untimed_of_seconds (show options'.budget.seconds = none from hseconds)] at huntimed
      exact .inl huntimed
    rcases minimize_untimed hoptions env x₀ world with
      hsame | ⟨r, s, whole, t, hrun, hwhole, htime, hbegins⟩ <;>
      rcases minimize_untimed hoptions' env x₀ world' with
        hsame' | ⟨r', s', whole', t', hrun', hwhole', htime', hbegins'⟩
    · rw [hsame, hsame', huntimed]
      exact .inl rfl
    · -- the second run is cut short
      rw [hwhole'] at huntimed
      refine .inr ⟨hseconds, whole', r', hsame ▸ huntimed.symm, congrArg Prod.fst hrun', .inr ?_⟩
      exact ⟨htime', hbegins'⟩
    · -- the first run is cut short
      rw [hwhole] at huntimed
      refine .inr ⟨hseconds, r, whole, congrArg Prod.fst hrun, hsame' ▸ huntimed, .inl ?_⟩
      exact ⟨htime, hbegins⟩
    · -- both runs are cut short, and one of them before the other
      rw [hwhole, hwhole'] at huntimed
      cases huntimed
      refine .inr ⟨hseconds, r, r', congrArg Prod.fst hrun, congrArg Prod.fst hrun', ?_⟩
      exact (List.prefix_or_prefix_of_prefix hbegins hbegins').imp (⟨htime, ·⟩) (⟨htime', ·⟩)
  · have hle : options.ladder.max ≤ 1 := by
      rcases hrun with hrun | hrun
      · exact ladderMax_le_of_qpFailure (Prod.ext hrun rfl) hqp
      · have hle' : options'.ladder.max ≤ 1 := ladderMax_le_of_qpFailure (Prod.ext hrun rfl) hqp
        exact hle'
    omega

theorem isEngaged_plateau (x : Vector ℝ 1) :
    isEngaged (plateauAt x) (Options.standard : Options ℝ).steering.ineqMargin = true := by
  have hvalue : (-1e-6 : ℝ) ≤ 1 := by norm_num
  have hnear : ((plateauAt x).ineq.any fun c ↦ decide ((-1e-6 : ℝ) ≤ c.value)) = true :=
    List.any_eq_true.2 ⟨_, List.mem_singleton_self _, decide_eq_true hvalue⟩
  exact (Bool.false_or _).trans hnear

/-- On the plateau steering is engaged, so with a solver that never has an answer it always fails; and
the run that starts on the steering rungs has the result of the run that does not. -/
theorem failing_steering_is_left_out_unsolvedPlateau :
    ∃ r, (minimize unsolvedPlateau .standard (.replicate 1 0) ()).1 = .ok r ∧
      (minimize unsolvedPlateau
          { Options.standard with ladder := { min := 2, max := 3, maxRandomAttempts := 5 } }
          (.replicate 1 0) ()).1 = .ok r ∧
      r.termination ≠ .qpFailure ∧
      ∃ first, r.history[0]? = some first ∧
        isEngaged first.iterate.toObservation (Options.standard : Options ℝ).steering.ineqMargin
          = true := by
  obtain ⟨r, s, hrun⟩ :
      ∃ r s, minimize unsolvedPlateau .standard (.replicate 1 0) () = (.ok r, s) :=
    exists_minimize_eq_ok Options.isValid_standard one_ne_zero (toObservation?_plateau _)
      (by simp [Observation.isFinite, plateauAt, Constraint.isFinite]) (Linear.allFinite_real _)
  have hresult : (minimize unsolvedPlateau .standard (.replicate 1 0) ()).1 = .ok r :=
    congrArg Prod.fst hrun
  have hboxes : QpService.FailsOnBoxes unsolvedPlateau.solve := fun _ _ _ ↦ ⟨.nonFiniteData, rfl⟩
  obtain ⟨hsame, hreason⟩ := failing_steering_is_left_out (fun _ _ _ ↦ rfl) (fun _ _ _ _ ↦ rfl) hboxes
    Options.isValid_standard (Nat.zero_le 2) (Nat.le_succ 2) (le_refl 2)
  have huntimed := hsame.resolve_right fun h ↦ h.1 rfl
  obtain ⟨-, -, first, as, hfirst, -, -, hpath⟩ := minimize_eq_ok hrun
  cases hfirst.symm.trans (toObservation?_plateau _)
  exact ⟨r, hresult, huntimed.trans hresult, hreason r (.inl hresult), _, RunContext.first_record hpath rfl,
    isEngaged_plateau _⟩

/-! ## The time that failures take -/

/-- On the ramp, a solver that never has an answer and takes ten seconds to refuse a program over a
box.  The world is the time. -/
noncomputable def slowRamp : Environment ℕ ℝ 1 where
  evaluate x := pure (ramp.evaluate x ()).1
  solve p := fun time ↦ (.error .nonFiniteData, match p.feasible with
    | .box _ _ => time + 10
    | .simplex => time)
  eigen := ramp.eigen
  elapsed time := time

/-- Options that allow five seconds and one iteration, and permit all plain rungs. -/
noncomputable def hurriedOptions (min : ℕ) : Options ℝ :=
  { Options.standard with
    stopping := { (Options.standard : Options ℝ).stopping with maxIterations := 1 }
    budget := { seconds := some 5, evaluations := none }
    ladder := { min, max := 3, maxRandomAttempts := 5 }
    search := { (Options.standard : Options ℝ).search with backtracking := true } }

theorem isValid_hurriedOptions {min : ℕ} (hmin : min ≤ 3) : (hurriedOptions min).IsValid :=
  { Options.isValid_standard with
    ladderMin_le := hmin.trans (by decide)
    ladderMin_le_max := hmin }

@[inherit_doc slowRamp]
noncomputable def hurriedRun (min : ℕ) : RunContext ℕ ℝ 1 := ⟨slowRamp, hurriedOptions min, (1, 0)⟩

/-- The stage at which a hurried run on the slow ramp begins. -/
noncomputable def hurriedStart (min : ℕ) : Stage ℕ ℝ 1 :=
  .initial slowRamp (hurriedOptions min) (rampAt (.replicate 1 0)) 0

/-- Its climb. -/
noncomputable def hurriedClimber (min : ℕ) : IterationContext ℕ ℝ 1 :=
  (hurriedRun min).climber (hurriedStart min)

theorem failsOnBoxes_slowRamp : QpService.FailsOnBoxes slowRamp.solve :=
  fun _ _ _ ↦ ⟨.nonFiniteData, rfl⟩

theorem test_hurried (min : ℕ) (b : Stage ℕ ℝ 1) (hpoint : ∃ x, b.progress.current.toObservation = rampAt x) :
    (hurriedRun min).test b = none := by
  obtain ⟨x, hx⟩ := hpoint
  refine if_neg ?_
  rw [hx, Bool.not_eq_true]
  exact isFeasible_plateau x _

/-- Entering an iteration takes no time. -/
theorem world_entered_hurried {min : ℕ} {a : Stage ℕ ℝ 1} (ha : a.session.world = 0) :
    ((hurriedRun min).entered a).world = 0 := by
  have henv : (hurriedRun min).env.AnswersAlike (hurriedRun min).options.budget.seconds
      fun time time' ↦ time = 0 ∧ time' = 0 :=
    { evaluate := fun x w w' h ↦ ⟨rfl, h⟩
      simplex := fun p hp w w' h ↦ by
        refine ⟨rfl, ?_⟩
        show (match p.feasible with | .box _ _ => w + 10 | .simplex => w) = 0 ∧
          (match p.feasible with | .box _ _ => w' + 10 | .simplex => w') = 0
        rw [hp]
        exact h
      belowCap := by rintro _ _ ⟨rfl, rfl⟩; rfl }
  have hmeasure := henv.mirrors_measure a.progress.bundle a.progress.current
    ((hurriedRun min).conditioned a) (hurriedRun min).options.bundle.radius 0 0 ⟨rfl, rfl⟩
  have hworld : ((hurriedRun min).entered a).world = (a.progress.bundle.measure slowRamp.solve
      a.progress.current ((hurriedRun min).conditioned a) (hurriedRun min).options.bundle.radius
        a.session.world).2 := rfl
  rw [hworld, ha]
  exact hmeasure.2.1

theorem exhausted?_hurried {min : ℕ} {s : Session ℕ ℝ 1} (htime : s.world < 5) :
    (hurriedRun min).exhausted? s = none := by
  have hlimit : ¬ (hurriedRun min).IsLate s := not_not.2 htime
  exact RunContext.exhausted?_untimed hlimit

/-- What is searched along the direction of steepest descent on the ramp. -/
noncomputable def rampTask : SearchTask ℝ 1 where
  start := rampAt (.replicate 1 0)
  direction := .replicate 1 (-1)
  slope := -1
  mu := 1

/-- The first plain rung has the direction of steepest descent, and takes no time. -/
theorem makeDirection_hurried (min : ℕ) (s : Session ℕ ℝ 1) :
    ∃ d s', (hurriedClimber min).makeDirection .quasiNewton 1 s = (.ok d, s') ∧ s'.world = s.world ∧
      d.mu = 1 ∧ (hurriedClimber min).task (.start 1) d = rampTask := by
  let it := hurriedClimber min
  have hgrad : (it.observation.penaltyGradAt 1).get = fun _ ↦ 1 := penaltyGradAt_ramp _ 1
  have hne : (it.observation.penaltyGradAt 1).get ≠ 0 := by
    rw [hgrad]
    exact fun h ↦ one_ne_zero (congrFun h 0)
  have hcurvature : it.curvature.toMatrix.PosDef := Mat.posDef_identity
  obtain ⟨d, hd, hmu, hvector, hslope, -⟩ := DirectionContext.result_quasiNewton
    it.toDirectionContext it.env.solve it.options s.generator s.world hcurvature hne
  have hdirection : d.vector = .replicate 1 (-1) := by
    refine ext_get fun i ↦ ?_
    rw [hvector, get_neg, Mat.get_mulVec, hgrad]
    show -((Mat.identity ℝ 1).toMatrix *ᵥ _) i = _
    rw [Mat.toMatrix_identity, one_mulVec]
    simp [get_eq]
  have hvalue : d.slope = -1 := by
    rw [hslope, dot_eq, hgrad, hdirection]
    simp [dotProduct, get_eq]
  refine ⟨d, (it.makeDirection .quasiNewton 1 s).2, Prod.ext hd rfl, rfl, hmu, ?_⟩
  rw [IterationContext.task, hdirection, hvalue]
  rfl

theorem backtrackingLimit_rampTask (min : ℕ) :
    rampTask.backtrackingLimit (hurriedOptions min).search ≠ 0 := by
  have hcap : rampTask.evaluationCap (hurriedOptions min).search = none :=
    if_neg (not_le.2 (by norm_num [rampTask]))
  rw [SearchTask.backtrackingLimit, hcap]
  dsimp only
  rw [halvingSteps_real]
  exact Nat.succ_ne_zero _

/-- In time, the first step is accepted. -/
theorem lineSearch_hurried {min : ℕ} {s : Session ℕ ℝ 1} (htime : s.world < 5) :
    ∃ out s', lineSearch (hurriedClimber min).lookUp rampTask (hurriedOptions min).search s = (.ok out, s') ∧
      ∃ x, out.trial.iterate.toObservation = rampAt x := by
  let x := rampTask.pointAt 1
  have hlook : (hurriedClimber min).lookUp x s
      = (.evaluated (rampAt x), (evaluate slowRamp x s).2) :=
    RunContext.lookUp_of_toObservation? (exhausted?_hurried htime) (toObservation?_ramp _) rfl
      (isFinite_ramp _)
  have hdecreases : (Trial.ofObservation rampTask 1 (rampAt (rampTask.pointAt 1))).Decreases rampTask
      (hurriedOptions min).search := by
    show (rampAt (rampTask.pointAt 1)).penaltyAt 1
      ≤ (rampAt (.replicate 1 0)).penaltyAt 1 + 1e-4 * 1 * -1
    rw [penaltyAt_ramp, penaltyAt_ramp, SearchTask.pointAt, get_along]
    norm_num [rampTask, rampAt, plateauAt, get_eq]
  exact ⟨_, _, backtracking_of_decreases (backtrackingLimit_rampTask min) hlook (Trial.isUsable_real _)
    hdecreases, _, rfl⟩

/-- Too late, the limit is met. -/
theorem climbFrom_hurried_of_late {min : ℕ} {ladder : Ladder} (hlevel : ladder.level = .quasiNewton)
    {s : Session ℕ ℝ 1} (hlate : 5 ≤ s.world) :
    ∃ c s', (hurriedClimber min).climbFrom ladder (.start 1) s = ((.stopped .timeLimit, c), s') := by
  obtain ⟨d, s₁, hmade, hworld, hmu, htask⟩ := makeDirection_hurried min s
  have hlate₁ : (hurriedRun min).IsLate s₁ := by
    rw [RunContext.IsLate, hworld]
    exact hlate.not_gt
  have hsearch : lineSearch (hurriedClimber min).lookUp rampTask (hurriedOptions min).search s₁
      = (.error ⟨.budgetExhausted, 0, none⟩, s₁) :=
    backtracking_of_stopped (backtrackingLimit_rampTask min) (RunContext.lookUp_of_isLate hlate₁ _)
  have hsearched := (hurriedClimber min).searchAlong_of_not_lt (.start 1) hmu.not_lt (htask ▸ hsearch)
  have htry := (hurriedClimber min).tryOnce_of_stopped (hurriedClimber min).reattempts.limit (.start 1) hmade
    hsearched rfl
  have hreason : (hurriedClimber min).stopReason (note (.searched ((hurriedClimber min).task (.start 1) d)
      (.error ⟨.budgetExhausted, 0, none⟩)) s₁).2 = .timeLimit := RunContext.stopReason_of_isLate hlate₁
  rw [hreason] at htry
  rw [IterationContext.climbFrom_eq, IterationContext.climbOn_apply, IterationContext.climbRound, hlevel,
    htry]
  exact ⟨_, _, rfl⟩

theorem world_solve_slowRamp {m : ℕ} {p : QuadraticProgram ℝ m} (hp : p.IsBoxed) (time : ℕ) :
    (slowRamp.solve p time).2 = time + 10 := by
  obtain ⟨lower, upper, hfeasible⟩ := hp
  show (match p.feasible with | .box _ _ => time + 10 | .simplex => time) = time + 10
  rw [hfeasible]

/-- A climb that begins on the steering rungs fails there, and then it is too late. -/
theorem climbFrom_hurried_zero (s : Session ℕ ℝ 1) : ∃ c s',
    (hurriedClimber 0).climbFrom (.start (hurriedOptions 0).ladder true) (.start 1) s
      = ((.stopped .timeLimit, c), s') := by
  have hengaged : (hurriedClimber 0).engaged = true := isEngaged_plateau (.replicate 1 0)
  obtain ⟨hlevel, hnext, hclimb⟩ :=
    Ladder.climb_start (o := (hurriedOptions 0).ladder) (by decide) (by decide)
  obtain ⟨_, p, s₁, hp, hfirst, hworld, -⟩ := IterationContext.climbFrom_of_failsOnBoxes
    failsOnBoxes_slowRamp hengaged hlevel hnext (.start 1) s
  obtain ⟨hlevel', hnext', hclimb'⟩ :=
    Ladder.climb_start (o := { (hurriedOptions 0).ladder with min := 1 }) (by decide) (by decide)
  obtain ⟨_, p', s₂, hp', hsecond, hworld', -⟩ := IterationContext.climbFrom_of_failsOnBoxes
    failsOnBoxes_slowRamp hengaged hlevel' hnext' (.start 1) s₁
  have hlate : 5 ≤ s₂.world := by
    rw [hworld', show (hurriedClimber 0).env = slowRamp from rfl, world_solve_slowRamp hp']
    exact le_add_left (by decide)
  rw [hfirst, hclimb]
  show ∃ c s', (hurriedClimber 0).climbFrom (.start { (hurriedOptions 0).ladder with min := 1 } true)
    (.start 1) s₁ = ((.stopped .timeLimit, c), s')
  rw [hsecond, hclimb']
  exact climbFrom_hurried_of_late rfl hlate

theorem exhausted?_hurriedStart (min : ℕ) :
    (hurriedRun min).exhausted? ((hurriedRun min).entered (hurriedStart min)) = none := by
  refine exhausted?_hurried ?_
  rw [world_entered_hurried rfl]
  decide

/-- So the run ends with the record of its starting point. -/
theorem iterateOnce_hurried_zero : ∃ μ s, (hurriedRun 0).iterateOnce (hurriedStart 0)
    = .inr ((hurriedRun 0).ending (hurriedStart 0) μ .timeLimit s) := by
  obtain ⟨c, s, hclimb⟩ := climbFrom_hurried_zero ((hurriedRun 0).entered (hurriedStart 0))
  have hengaged : (hurriedClimber 0).engaged = true := isEngaged_plateau (.replicate 1 0)
  have hrun : (hurriedClimber 0).run 1 ((hurriedRun 0).entered (hurriedStart 0))
      = ((.error .timeLimit, c.mu), s) := by
    have hladder : (hurriedClimber 0).options.ladder = (hurriedOptions 0).ladder := rfl
    rw [IterationContext.run, bind_apply, hengaged, hladder, hclimb]
    rfl
  exact ⟨_, _, RunContext.iterateOnce_of_run_eq_error (test_hurried 0 _ ⟨_, rfl⟩) one_ne_zero
    (exhausted?_hurriedStart 0) hrun⟩

/-- The run that does not begin there makes a step, and then the iteration it was allowed is used up. -/
theorem iterateOnce_hurried_two : ∃ b r, (hurriedRun 2).iterateOnce (hurriedStart 2) = .inl b ∧
    (hurriedRun 2).iterateOnce b = .inr r ∧ r.1.termination = .maxIterations := by
  let it := hurriedClimber 2
  obtain ⟨d, s₁, hmade, hworld, hmu, htask⟩ :=
    makeDirection_hurried 2 ((hurriedRun 2).entered (hurriedStart 2))
  have htime : s₁.world < 5 := by
    rw [hworld, world_entered_hurried rfl]
    decide
  obtain ⟨out, s₂, hsearch, x, hx⟩ := lineSearch_hurried htime
  have hsearched := it.searchAlong_of_not_lt (.start 1) hmu.not_lt (htask ▸ hsearch)
  have htried := it.tryOnce_of_ok it.reattempts.limit (.start 1) hmade hsearched
  have hlevel : (Ladder.start it.options.ladder it.engaged).level = .quasiNewton := by
    rw [show it.engaged = true from isEngaged_plateau (.replicate 1 0)]
    rfl
  rw [← hlevel] at htried
  have hrun := IterationContext.run_of_moved (IterationContext.climbFrom_of_tryOnce htried)
  have hmove := RunContext.iterateOnce_of_run (test_hurried 2 _ ⟨_, rfl⟩) one_ne_zero
    (exhausted?_hurriedStart 2) hrun
  exact ⟨_, _, hmove, RunContext.iterateOnce_of_left_eq_zero (test_hurried 2 _ ⟨x, hx⟩) rfl, rfl⟩

/-- **The time that failing steering takes can tell runs apart.**  The problem is a function of the point,
the solver has no answer to any program, and the options differ in the steering rungs that they permit; but
one run ends for want of time, and the other one has made a step by then. -/
theorem failing_steering_costs_time :
    (∀ x w w', (slowRamp.evaluate x w).1 = (slowRamp.evaluate x w').1) ∧
    (∀ {m : ℕ} (p : QuadraticProgram ℝ m) w w', p.feasible = .simplex →
      (slowRamp.solve p w).1 = (slowRamp.solve p w').1) ∧
    QpService.FailsOnBoxes slowRamp.solve ∧ (hurriedOptions 0).IsValid ∧ (hurriedOptions 2).IsValid ∧
    ∃ r r', (minimize slowRamp (hurriedOptions 0) (.replicate 1 0) 0).1 = .ok r ∧
      (minimize slowRamp (hurriedOptions 2) (.replicate 1 0) 0).1 = .ok r' ∧
      r.termination = .timeLimit ∧ r.history.size = 1 ∧
      r'.termination = .maxIterations ∧ r'.history.size = 2 := by
  refine ⟨fun _ _ _ ↦ rfl, fun _ _ _ _ ↦ rfl, failsOnBoxes_slowRamp, isValid_hurriedOptions (by decide),
    isValid_hurriedOptions (by decide), ?_⟩
  have hruns (min : ℕ) (hmin : min ≤ 3) : ∃ r s as,
      minimize slowRamp (hurriedOptions min) (.replicate 1 0) 0 = (.ok r, s) ∧
        Path (hurriedRun min).iterateOnce (hurriedStart min :: as) (r, s) ∧
        r.history.size = as.length + 1 := by
    obtain ⟨r, s, hrun⟩ : ∃ r s, minimize slowRamp (hurriedOptions min) (.replicate 1 0) 0 = (.ok r, s) :=
      exists_minimize_eq_ok (isValid_hurriedOptions hmin) one_ne_zero (toObservation?_ramp _)
        (isFinite_ramp _) (allFinite_real _)
    obtain ⟨-, -, first, as, hfirst, -, -, hpath⟩ := minimize_eq_ok hrun
    cases hfirst.symm.trans (toObservation?_ramp _)
    exact ⟨r, s, as, hrun, hpath, RunContext.size_history_of_path hpath rfl⟩
  obtain ⟨r, s, as, hrun, hpath, hsize⟩ := hruns 0 (by decide)
  obtain ⟨r', s', as', hrun', hpath', hsize'⟩ := hruns 2 (by decide)
  obtain ⟨μ, t, hlast⟩ := iterateOnce_hurried_zero
  obtain ⟨b, last, hmove, hend, hreason⟩ := iterateOnce_hurried_two
  refine ⟨r, r', congrArg Prod.fst hrun, congrArg Prod.fst hrun', ?_⟩
  cases hpath with
  | cons hnext => cases hlast.symm.trans hnext
  | last hr =>
    cases hr.symm.trans hlast
    cases hpath' with
    | last hr' => cases hmove.symm.trans hr'
    | cons hnext hrest =>
      cases hmove.symm.trans hnext
      cases hrest with
      | cons hnext' => cases hend.symm.trans hnext'
      | last hr' =>
        cases hend.symm.trans hr'
        exact ⟨rfl, hsize, hreason, hsize'⟩

end ExactPenalty
