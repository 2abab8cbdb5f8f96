import ExactPenalty.Proofs.Run.Answers
import ExactPenalty.Proofs.Run.InStep

/-!
# What only cuts a run short

Tolerances, limits and budgets decide when a run stops, and the bundle of gradients decides what
stationarity it measures; none of them has a say in the steps that the run takes until then.  So two
runs that differ in nothing else pass the same iterates, as far as both of them go
(`histories_agree_until_stopped`).

The argument compares the runs stage by stage.  Two stages are alike if their next steps depend on the
same data (`Stage.IsAlike`): bundles, trackers, worlds and counters may differ.  Then the contexts of
their iterations are alike (`Stage.IsAlike.climber`), so the iterations are in step, and if both of
them move, they move to stages that are alike again.
-/

set_option autoImplicit false

namespace ExactPenalty

open Session ExactPenalty.Action

variable {σ τ R : Type} [Scalar R] {n : Nat}

/-! ## Stages -/

/-- Two runs are alike in all that their steps depend on. -/
structure RunContext.IsAlike (run : RunContext σ R n) (run' : RunContext τ R n) : Prop where
  evaluate : ∀ x, Agree (run.env.evaluate x) (run'.env.evaluate x)
  /-- Quadratic programs have the same answers, or there are no constraints. -/
  solve : (∀ {m : Nat} (qp : QuadraticProgram R m), Agree (run.env.solve qp) (run'.env.solve qp)) ∨
    run.shape = (0, 0)
  eigen : ∀ {m : Nat} (h : Mat R m m), run.env.eigen h = run'.env.eigen h
  shape : run.shape = run'.shape
  course : run.options.SameCourse run'.options

/-- Two stages are alike in all that the next step depends on. -/
structure Stage.IsAlike (run : RunContext σ R n) (a : Stage σ R n) (b : Stage τ R n) : Prop where
  iteration : a.progress.iteration = b.progress.iteration
  current : a.progress.current = b.progress.current
  curvature : a.progress.curvature = b.progress.curvature
  step : a.progress.step = b.progress.step
  /-- The current iterate has as many constraints as the problem. -/
  shape : a.progress.current.shape = run.shape
  session : SameDraws run.options.ladder.max a.session b.session

/-- What a move makes of the iterate, of the curvature matrix and of the record of the step depends on
these alone. -/
theorem Progress.moved_eq {p q : Progress R n} {engaged engaged' : Bool}
    (hiteration : p.iteration = q.iteration) (hcurrent : p.current = q.current)
    (hcurvature : p.curvature = q.curvature) (hengaged : engaged = engaged')
    (o o' : StoppingOptions R) (move : Move R n) (μ : R) :
    (p.moved o engaged move μ).2.iteration = (q.moved o' engaged' move μ).2.iteration ∧
      (p.moved o engaged move μ).2.current = (q.moved o' engaged' move μ).2.current ∧
      (p.moved o engaged move μ).2.curvature = (q.moved o' engaged' move μ).2.curvature ∧
      (p.moved o engaged move μ).2.step = (q.moved o' engaged' move μ).2.step := by
  simp only [moved, hiteration, hcurrent, hcurvature, hengaged, and_self]

/-- Eigenvalue methods that decompose alike condition alike. -/
theorem condition_congr {eigen eigen' : EigenMethod R}
    (heigen : ∀ {m : Nat} (h : Mat R m m), eigen h = eigen' h) (o : ConditioningOptions R)
    (h : Mat R n n) : condition eigen o h = condition eigen' o h := by
  have hmethod : @eigen = @eigen' := by
    funext m a
    exact heigen a
  subst hmethod
  rfl

namespace Stage.IsAlike

variable {run : RunContext σ R n} {run' : RunContext τ R n} {a a' : Stage σ R n} {b b' : Stage τ R n}

/-- The iterations of stages that are alike are alike. -/
theorem climber (hrun : run.IsAlike run') (h : Stage.IsAlike run a b) :
    (run.climber a).IsAlike (run'.climber b) where
  evaluate := hrun.evaluate
  solve := hrun.solve.imp_right fun hshape ↦
    isEngaged_of_shape_eq_zero (h.shape.trans hshape) run.options.steering.ineqMargin
  shape := hrun.shape
  course := hrun.course
  direction := by
    show (⟨a.progress.current.toObservation, a.progress.curvature.matrix, run.conditioned a,
        isEngaged a.progress.current.toObservation run.options.steering.ineqMargin⟩ :
          DirectionContext R n)
      = ⟨b.progress.current.toObservation, b.progress.curvature.matrix, run'.conditioned b,
        isEngaged b.progress.current.toObservation run'.options.steering.ineqMargin⟩
    rw [RunContext.conditioned, RunContext.conditioned, condition_congr hrun.eigen,
      hrun.course.conditioning, hrun.course.steering, h.current, h.curvature]
  reattempts := by
    show (if a.progress.iteration = 0 then run.options.firstReattempts else run.options.reattempts)
      = if b.progress.iteration = 0 then run'.options.firstReattempts else run'.options.reattempts
    rw [h.iteration, hrun.course.firstReattempts, hrun.course.reattempts]

/-- **Iterations that both move lead to stages that are alike.** -/
theorem iterateOnce (hrun : run.IsAlike run') (hoptions : run.options.IsValid)
    (h : Stage.IsAlike run a b) (ha : run.iterateOnce a = .inl a')
    (hb : run'.iterateOnce b = .inl b') : Stage.IsAlike run a' b' := by
  obtain ⟨move, μ, s, -, hclimb, rfl⟩ := RunContext.exists_move ha
  obtain ⟨move', μ', t, -, hclimb', rfl⟩ := RunContext.exists_move hb
  have hentered : SameDraws run.options.ladder.max (run.entered a) (run'.entered b) := h.session
  have hmatch := (h.climber hrun).inStep_run hoptions a.progress.current.mu _ _ hentered
  rw [h.current] at hmatch hclimb
  rw [hclimb, hclimb'] at hmatch
  -- both iterations move, so neither of them is cut off
  obtain ⟨_, hcut⟩ | ⟨_, hcut⟩ | ⟨hanswer, hdraws⟩ := hmatch
  · cases hcut
  · cases hcut
  cases hanswer
  have hengaged : (run.climber a).engaged = (run'.climber b).engaged :=
    congrArg (·.engaged) (h.climber hrun).direction
  obtain ⟨hiteration, hcurrent, hcurvature, hstep⟩ := Progress.moved_eq
    (p := run.recorded a) (q := run'.recorded b) h.iteration h.current h.curvature hengaged
    run.options.stopping run'.options.stopping move μ
  obtain ⟨-, -, -, hshape, -⟩ := IterationContext.answered_of_run_eq_ok hclimb
  exact ⟨hiteration, hcurrent, hcurvature, hstep, hshape, hdraws⟩

end Stage.IsAlike

/-! ## Whole runs -/

variable {env : Environment σ R n} {env' : Environment τ R n} {options options' : Options R}
    {x₀ : Vector R n} {world : σ} {world' : τ} {r r' : RunResult R n} {s : Session σ R n}
    {s' : Session τ R n}

/-- **Stopping is all that stopping parameters do.**  Two runs from the same point, with problems that
answer a point alike, take the same steps as far as both of them go, if their options differ only in
tolerances, limits, budgets and the bundle, and in what concerns random numbers where the random rung
is not permitted.  Where it is, a seed must stand for the same random numbers.  Quadratic programs must
have the same answers, unless there are no constraints. -/
theorem histories_agree_until_stopped (answer : Vector R n → Evaluation R)
    (hanswer : ∀ x w, (env.evaluate x w).1 = answer x)
    (hanswer' : ∀ x w, (env'.evaluate x w).1 = answer x)
    (heigen : ∀ {m : Nat} (h : Mat R m m), env.eigen h = env'.eigen h)
    (hgenerator : 3 < options.ladder.max → env.generator = env'.generator)
    (hsolve : (∃ solution : {m : Nat} → QuadraticProgram R m → Except QpError (Vector R m),
        (∀ {m : Nat} (qp : QuadraticProgram R m) w, (env.solve qp w).1 = solution qp) ∧
          ∀ {m : Nat} (qp : QuadraticProgram R m) w, (env'.solve qp w).1 = solution qp) ∨
      (answer x₀).ineq = [] ∧ (answer x₀).eq = [])
    (hcourse : options.SameCourse options')
    (hrun : minimize env options x₀ world = (.ok r, s))
    (hrun' : minimize env' options' x₀ world' = (.ok r', s')) :
    ∀ (k : Nat) a b, r.history[k]? = some a → r'.history[k]? = some b →
      a.iterate = b.iterate ∧ a.step = b.step := by
  obtain ⟨hoptions, -, first, as, hfirst, -, -, hpath⟩ := minimize_eq_ok hrun
  obtain ⟨-, -, first', bs, hfirst', -, -, hpath'⟩ := minimize_eq_ok hrun'
  rw [hanswer] at hfirst
  rw [hanswer', hfirst] at hfirst'
  cases hfirst'
  have halike : RunContext.IsAlike ⟨env, options, first.shape⟩ ⟨env', options', first.shape⟩ := by
    refine ⟨fun x w w' ↦ (hanswer x w).trans (hanswer' x w').symm, ?_, heigen, rfl, hcourse⟩
    rcases hsolve with ⟨solution, hsolution, hsolution'⟩ | ⟨hineq, heq⟩
    · exact .inl fun qp w w' ↦ (hsolution qp w).trans (hsolution' qp w').symm
    · exact .inr (Evaluation.shape_of_no_values hfirst hineq heq)
  have hstart : Stage.IsAlike ⟨env, options, first.shape⟩ (.initial env options first world)
      (.initial env' options' first world') :=
    ⟨rfl, congrArg first.weighed hcourse.mu0, congrArg (Curvature.initial n) hcourse.curvature, rfl,
      rfl, fun hmax ↦ congr (hgenerator hmax) (hcourse.random hmax).1⟩
  have hstages := Path.together (fun _ _ _ _ h ha hb ↦ h.iterateOnce halike hoptions ha hb) hpath
    hpath' hstart
  intro k a b ha hb
  obtain ⟨c, hc, rfl⟩ := RunContext.exists_stage hpath rfl ha
  obtain ⟨c', hc', rfl⟩ := RunContext.exists_stage hpath' rfl hb
  have hc := hstages k c c' hc hc'
  exact ⟨hc.current, hc.step⟩

/-- A run down the parabola that may iterate once, without an answer to any quadratic program, begins as
the run that is not cut short. -/
theorem histories_agree_until_stopped_parabola :
    let silent : Environment Unit ℝ 1 := { parabola with solve := fun _ ↦ pure (.error .nonFiniteData) }
    let once : Options ℝ :=
      { Options.standard with
        seed := 0
        stopping := { (Options.standard : Options ℝ).stopping with maxIterations := 1 } }
    ∃ r s r' s', minimize parabola .standard (.replicate 1 1) () = (.ok r, s) ∧
      minimize silent once (.replicate 1 1) () = (.ok r', s') ∧
      ∀ (k : Nat) a b, r.history[k]? = some a → r'.history[k]? = some b →
        a.iterate = b.iterate ∧ a.step = b.step := by
  intro silent once
  have hvalid : once.IsValid := { Options.isValid_standard with }
  obtain ⟨r, s, hrun⟩ := exists_minimize_parabola
  obtain ⟨r', s', hrun'⟩ : ∃ r' s', minimize silent once (.replicate 1 1) () = (.ok r', s') :=
    exists_minimize_eq_ok hvalid one_ne_zero (toObservation?_parabola _) (isFinite_parabolaAt _)
      (Linear.allFinite_real _)
  have hcourse : Options.standard.SameCourse once :=
    { mu0 := rfl, curvature := rfl, ladderMin := rfl, ladderMax := rfl
      random := fun h ↦ absurd h (lt_irrefl 3)
      steering := rfl, conditioning := rfl, search := rfl, reattempts := rfl
      firstReattempts := rfl, forceMovement := rfl }
  let answer (x : Vector ℝ 1) : Evaluation ℝ := (parabola.evaluate x ()).1
  have hanswer (x : Vector ℝ 1) (w : Unit) : (parabola.evaluate x w).1 = answer x := rfl
  have hanswer' (x : Vector ℝ 1) (w : Unit) : (silent.evaluate x w).1 = answer x := rfl
  exact ⟨r, s, r', s', hrun, hrun', histories_agree_until_stopped answer hanswer hanswer'
    (fun _ ↦ rfl) (fun _ ↦ rfl) (.inr ⟨rfl, rfl⟩) hcourse hrun hrun'⟩

end ExactPenalty
