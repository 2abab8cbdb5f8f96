import Mathlib
import ExactPenalty.Proofs.Frame.Climb
import ExactPenalty.Run

/-!
# Runs in another frame

A run of the problem in another frame visits the same points, in new coordinates, and it judges them in
the same way; so its result is that of the old run in the new frame (`minimize_inFrame`).  Two things
are known of the frame or of the run: that the coordinates stay, or that the random rung is not
permitted and the eigenvalue method is exact.
-/

set_option autoImplicit false

namespace ExactPenalty

open Linear Session ExactPenalty.Action

variable {σ : Type} {n : Nat} (F : Frame n)

/-! ## Records -/

noncomputable def StepRecord.inFrame (r : StepRecord ℝ) : StepRecord ℝ := { r with mu := r.mu / F.unit }

noncomputable def IterationRecord.inFrame (r : IterationRecord ℝ n) : IterationRecord ℝ n :=
  { r with iterate := r.iterate.inFrame F, step := r.step.map (·.inFrame F) }

/-! ## Tracked iterates -/

namespace Tracker

variable (t : Tracker ℝ n) (it it' : Iterate ℝ n)

noncomputable def inFrame : Tracker ℝ n where
  bestFeasible := t.bestFeasible.map (·.inFrame F)
  mostFeasible := t.mostFeasible.inFrame F

theorem value_lt_inFrame : (it.inFrame F).value < (it'.inFrame F).value ↔ it.value < it'.value :=
  mul_lt_mul_iff_of_pos_left F.unit_pos

theorem moreFeasible_inFrame :
    MoreFeasible (it.inFrame F) (it'.inFrame F) ↔ MoreFeasible it it' := by
  rw [MoreFeasible, MoreFeasible, value_lt_inFrame, it.toObservation_inFrame, it'.toObservation_inFrame,
    it.toObservation.tv_inFrame, it'.toObservation.tv_inFrame]

theorem lowerObjective_inFrame (best : Option (Iterate ℝ n)) :
    lowerObjective (best.map (·.inFrame F)) (it.inFrame F)
      = (lowerObjective best it).map (·.inFrame F) := by
  cases best with
  | none => rfl
  | some b =>
    dsimp only [Option.map, lowerObjective]
    rw [if_congr (value_lt_inFrame F it b) rfl rfl]
    split_ifs <;> rfl

/-- **The same iterates are remembered in every frame.** -/
theorem consider_inFrame (o : StoppingOptions ℝ) :
    (t.inFrame F).consider (o.inFrame F) (it.inFrame F) = (t.consider o it).inFrame F := by
  have hfeasible : (it.inFrame F).isFeasible o.ineqTol o.eqTol = it.isFeasible o.ineqTol o.eqTol :=
    it.toObservation.isFeasible_inFrame F _ _
  have hbest : (t.consider o it).bestFeasible.map (·.inFrame F)
      = if (it.inFrame F).isFeasible o.ineqTol o.eqTol then
          lowerObjective (t.bestFeasible.map (·.inFrame F)) (it.inFrame F)
        else t.bestFeasible.map (·.inFrame F) := by
    rw [hfeasible, lowerObjective_inFrame]
    exact apply_ite (Option.map fun it : Iterate ℝ n ↦ it.inFrame F) _ _ _
  have hmost : (t.consider o it).mostFeasible.inFrame F
      = if MoreFeasible (it.inFrame F) (t.mostFeasible.inFrame F) then it.inFrame F
        else t.mostFeasible.inFrame F := by
    rw [if_congr (moreFeasible_inFrame F it t.mostFeasible) rfl rfl]
    exact apply_ite (Iterate.inFrame F) _ _ _
  exact congrArg₂ Tracker.mk hbest.symm hmost.symm

end Tracker

/-! ## Stopping -/

theorem Extended.atLeast_scaled_unit (e : Extended ℝ) (x : ℝ) :
    (e.scaled F.unit).AtLeast (F.unit * x) ↔ e.AtLeast x := by
  cases e with
  | negInf => exact iff_of_false (not_atLeast_negInf _) (not_atLeast_negInf _)
  | finite b =>
    show F.unit * x ≤ b * F.unit ↔ x ≤ b
    rw [mul_comm, mul_le_mul_iff_of_pos_right F.unit_pos]
  | posInf => exact iff_of_true (atLeast_posInf _) (atLeast_posInf _)

/-- **The same tests are passed in every frame.** -/
theorem stoppingTest_inFrame (o : StoppingOptions ℝ) (previous : Option (Iterate ℝ n))
    (it : Iterate ℝ n) (stationarity : ℝ) :
    stoppingTest (o.inFrame F) (previous.map (·.inFrame F)) (it.inFrame F) stationarity
      = stoppingTest o previous it stationarity := by
  have hfeasible : (it.inFrame F).isFeasible o.ineqTol o.eqTol = it.isFeasible o.ineqTol o.eqTol :=
    it.toObservation.isFeasible_inFrame F _ _
  have htarget : (o.inFrame F).target.AtLeast (it.inFrame F).value ↔ o.target.AtLeast it.value :=
    o.target.atLeast_scaled_unit F it.value
  have hbefore (p : Iterate ℝ n) :
      (p.inFrame F).penaltyAt (it.inFrame F).mu = p.penaltyAt it.mu :=
    p.toObservation.penaltyAt_inFrame F it.mu
  rw [stoppingTest, stoppingTest]
  show (if (it.inFrame F).isFeasible o.ineqTol o.eqTol = true then _ else _) = _
  rw [hfeasible, it.penalty_inFrame, Option.any_map]
  simp only [hbefore, htarget]
  rfl

/-! ## Progress -/

namespace Progress

variable (p : Progress ℝ n)

noncomputable def inFrame : Progress ℝ n where
  iteration := p.iteration
  current := p.current.inFrame F
  curvature := p.curvature.inFrame F
  bundle := p.bundle.inFrame F
  tracker := p.tracker.inFrame F
  history := p.history.map (·.inFrame F)
  step := p.step.map (·.inFrame F)

theorem start_inFrame (o : Options ℝ) (first : Observation ℝ n) :
    start (o.inFrame F) (first.inFrame F) = (start o first).inFrame F := by
  have hcurvature : Curvature.initial n (o.inFrame F).curvature
      = (Curvature.initial n o.curvature).inFrame F := (Curvature.inFrame_initial F o.curvature).symm
  have hbundle : (GradientBundle.empty ((o.inFrame F).bundle.capacity n)).push (first.inFrame F)
      = ((GradientBundle.empty (o.bundle.capacity n)).push first).inFrame F :=
    (GradientBundle.empty (o.bundle.capacity n)).push_inFrame F first
  have htracker : Tracker.start (o.inFrame F).stopping ((first.inFrame F).weighed (o.inFrame F).mu0)
      = (Tracker.start o.stopping (first.weighed o.mu0)).inFrame F :=
    ({ bestFeasible := none, mostFeasible := first.weighed o.mu0 } : Tracker ℝ n).consider_inFrame F
      (first.weighed o.mu0) o.stopping
  rw [start, start, hcurvature, hbundle, htracker, inFrame, Array.map_empty]
  rfl

/-- **A move leads to the same state in every frame**, and to the same use of the secant pair. -/
theorem moved_inFrame (o : StoppingOptions ℝ) (engaged : Bool) (move : Move ℝ n) (μ : ℝ) :
    (p.inFrame F).moved (o.inFrame F) engaged (move.inFrame F) (μ / F.unit)
      = Prod.map id (Progress.inFrame F) (p.moved o engaged move μ) := by
  have hcurrent : (p.inFrame F).current.reweighed (μ / F.unit)
      = (p.current.reweighed μ).inFrame F := rfl
  have hnext : (move.inFrame F).target.weighed (μ / F.unit)
      = (move.target.weighed μ).inFrame F := rfl
  have hpoint (it it' : Iterate ℝ n) : (it.inFrame F).point - (it'.inFrame F).point
      = F.vec (it.point - it'.point) := F.point_sub _ _
  have hgrad (it it' : Iterate ℝ n) : (it.inFrame F).penaltyGrad - (it'.inFrame F).penaltyGrad
      = F.vec (it.penaltyGrad - it'.penaltyGrad) := by
    rw [it.penaltyGrad_inFrame, it'.penaltyGrad_inFrame, F.vec_sub]
  have hupdate (s y : Vector ℝ n) : (p.inFrame F).curvature.update (F.vec s) (F.vec y)
      = Prod.map id (Curvature.inFrame F) (p.curvature.update s y) := p.curvature.update_inFrame F s y
  have hbundle (it : Iterate ℝ n) : (p.inFrame F).bundle.push (it.inFrame F).toObservation
      = (p.bundle.push it.toObservation).inFrame F := p.bundle.push_inFrame F it.toObservation
  have htracker (it : Iterate ℝ n) : (p.inFrame F).tracker.consider (o.inFrame F) (it.inFrame F)
      = (p.tracker.consider o it).inFrame F := p.tracker.consider_inFrame F it o
  rw [moved, moved]
  dsimp only
  rw [hcurrent, hnext, hpoint, hgrad, hupdate, hbundle, htracker]
  rfl

end Progress

/-! ## Iterations -/

noncomputable def RunResult.inFrame (r : RunResult ℝ n) : RunResult ℝ n where
  termination := r.termination
  final := r.final.inFrame F
  stationarity := r.stationarity
  iterations := r.iterations
  evaluations := r.evaluations
  history := r.history.map (·.inFrame F)
  tracker := r.tracker.inFrame F

namespace RunContext

theorem mirrors_finish (p : Progress ℝ n) (last : IterationRecord ℝ n) (μ : ℝ) (reason : Termination) :
    Mirrors (SameState (σ := σ)) (RunResult.inFrame F) (finish p last μ reason)
      (finish (p.inFrame F) (last.inFrame F) (μ / F.unit) reason) := by
  rw [finish, finish]
  refine .get_bind fun s t h ↦ ?_
  rw [h.evaluations]
  exact ((mirrors_note _ _).bind (g := RunResult.inFrame F) fun _ ↦ .pure rfl) s t h

variable {run : RunContext σ ℝ n}

/-- **Iterations are entered alike in every frame.** -/
theorem mirrors_enter (heigen : F.rotation = 1 ∨ EigenMethod.IsExact run.env.eigen)
    (p : Progress ℝ n) :
    Mirrors SameState (Prod.map F.mat (Prod.map (IterationRecord.inFrame F) (Progress.inFrame F)))
      (run.enter p) ((run.inFrame F).enter (p.inFrame F)) := by
  have hconditioned := F.mat_condition heigen run.options.conditioning p.curvature.matrix
  have hmeasure (h : Mat ℝ n n) := p.bundle.measure_inFrame F run.env.solve p.current h
    run.options.bundle.radius
  have hhistory (record : IterationRecord ℝ n) :
      { p.inFrame F with history := (p.inFrame F).history.push (record.inFrame F) }
        = ({ p with history := p.history.push record } : Progress ℝ n).inFrame F :=
    congrArg (fun history ↦ { p.inFrame F with history }) Array.map_push.symm
  rw [enter, enter]
  refine (mirrors_note _ _).bind fun _ ↦ (mirrors_outside (f := id) ?_).bind fun stationarity ↦
    (mirrors_note _ _).bind fun _ ↦ .pure ?_
  · show (p.bundle.inFrame F).measure run.env.solve (p.current.inFrame F)
      (condition run.env.eigen run.options.conditioning (F.mat p.curvature.matrix)).matrix
      run.options.bundle.radius = _
    rw [hconditioned, hmeasure, id_map]
  · exact Prod.ext hconditioned (Prod.ext rfl (hhistory (p.record stationarity)))

theorem iteration_inFrame (p : Progress ℝ n) (h : Mat ℝ n n) :
    (run.inFrame F).iteration (p.inFrame F) (F.mat h) = (run.iteration p h).inFrame F := by
  have hengaged : isEngaged (p.current.inFrame F).toObservation run.options.steering.ineqMargin
      = isEngaged p.current.toObservation run.options.steering.ineqMargin :=
    p.current.toObservation.isEngaged_inFrame F _
  rw [iteration, iteration]
  show ({ toRunContext := run.inFrame F
          observation := (p.current.inFrame F).toObservation
          engaged := isEngaged (p.current.inFrame F).toObservation run.options.steering.ineqMargin
          .. } : IterationContext σ ℝ n) = _
  rw [hengaged]
  rfl

variable (run) in
/-- **Iterations lead to the same result in every frame.** -/
theorem mirrors_iterateFrom (hoptions : run.options.IsValid)
    (hframe : F.rotation = 1 ∨
      EigenMethod.IsExact run.env.eigen ∧ run.options.ladder.max ≤ 3) (left : Nat) (p : Progress ℝ n) :
    Mirrors SameState (RunResult.inFrame F) (run.iterateFrom left p)
      ((run.inFrame F).iterateFrom left (p.inFrame F)) := by
  have hprevious (p : Progress ℝ n) : (p.inFrame F).history.back?.map (·.iterate)
      = (p.history.back?.map (·.iterate)).map (·.inFrame F) := by
    show (p.history.map (·.inFrame F)).back?.map (·.iterate) = _
    rw [Array.back?_map, Option.map_map, Option.map_map]
    rfl
  have hcurrent (p : Progress ℝ n) : (p.inFrame F).current = p.current.inFrame F := rfl
  have hstopping : (run.inFrame F).options.stopping = run.options.stopping.inFrame F := rfl
  -- the last iteration differs from the others in its end only, so they are not told apart before
  induction left using Nat.strong_induction_on generalizing p with
  | _ left ih =>
    rw [iterateFrom.eq_def, iterateFrom.eq_def]
    dsimp only
    rw [hprevious]
    refine (mirrors_enter F (hframe.imp_right And.left) p).bind fun entered ↦ ?_
    obtain ⟨h, record, p'⟩ := entered
    have hstationarity : (record.inFrame F).stationarity = record.stationarity := rfl
    dsimp only [Prod.map]
    rw [hcurrent, hstopping, hstationarity, stoppingTest_inFrame]
    cases stoppingTest run.options.stopping (p.history.back?.map (·.iterate)) p'.current
      record.stationarity.value with
    | some reason => exact mirrors_finish F p' record p'.current.mu reason
    | none =>
      cases left with
      | zero => exact mirrors_finish F p' record p'.current.mu .maxIterations
      | succ left =>
        refine .get_bind fun s t hst ↦ ?_
        rw [run.exhausted?_inFrame F hst]
        cases run.exhausted? s with
        | some reason => exact mirrors_finish F p' record p'.current.mu reason s t hst
        | none =>
          dsimp only
          rw [iteration_inFrame]
          refine ((run.iteration p' h).mirrors_run F (hframe.imp_right And.right) hoptions
            p'.current.mu).bind (fun answer ↦ ?_) s t hst
          obtain ⟨reason | move, μ⟩ := answer
          · exact mirrors_finish F p' record μ reason
          · dsimp only [Prod.map, Except.map]
            rw [Progress.moved_inFrame]
            exact (mirrors_note _ _).bind fun _ ↦ ih left (Nat.lt_succ_self left) _

end RunContext

/-! ## Whole runs -/

section Runs

variable (env : Environment σ ℝ n) {options : Options ℝ} (hoptions : options.IsValid)
    (hframe : F.rotation = 1 ∨ EigenMethod.IsExact env.eigen ∧ options.ladder.max ≤ 3)
    (x₀ : Vector ℝ n)
include hoptions hframe

theorem mirrors_runFrom :
    Mirrors SameState (Except.map (RunResult.inFrame F)) (runFrom env options x₀)
      (runFrom (env.inFrame F) (options.inFrame F) (F.point x₀)) := by
  rw [runFrom, runFrom, Options.validate_eq_ok_iff.2 ⟨rfl, hoptions⟩,
    Options.validate_eq_ok_iff.2 ⟨rfl, hoptions.inFrame F⟩]
  dsimp only
  split_ifs
  · exact .pure rfl
  refine (mirrors_evaluate F env x₀).bind fun answer ↦ ?_
  rw [answer.toObservation?_inFrame]
  cases answer.toObservation? x₀ with
  | none => exact .pure rfl
  | some first =>
    dsimp only [Option.map]
    rw [first.isFinite_inFrame, first.shape_inFrame, allFinite_real, allFinite_real,
      Progress.start_inFrame]
    split_ifs
    · exact (mirrors_note _ _).bind fun _ ↦
        (RunContext.mirrors_iterateFrom F ⟨env, options, first.shape⟩ hoptions hframe _ _).bind
          fun result ↦ .pure rfl
    · exact .pure rfl

/-- **A run in another frame has the same result in that frame.** -/
theorem minimize_inFrame (world : σ) :
    (minimize (env.inFrame F) (options.inFrame F) (F.point x₀) world).1
      = (minimize env options x₀ world).1.map (RunResult.inFrame F) :=
  (mirrors_runFrom F env hoptions hframe x₀ _ _ ⟨rfl, rfl, rfl⟩).1

end Runs

end ExactPenalty
