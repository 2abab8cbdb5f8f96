import Mathlib
import ExactPenalty.Proofs.Rungs
import ExactPenalty.Proofs.Run.Definite
import ExactPenalty.Proofs.Run.Endings
import ExactPenalty.Proofs.Run.Transcript
import ExactPenalty.Proofs.Stationarity

/-!
# Without a descent direction

A climb reports the cause of its last failure only.  If that is the want of a descent direction, and
the highest permitted rung is one of the two plain ones, then that rung was the last to fail: it had
no direction to make, so the gradient of the penalty function vanishes at the penalty parameter in
force (`IterationContext.gradient_eq_zero_of_run_eq_error`).  If that is the one the iterate was
recorded with, its stationarity is zero, so it can only have failed the first test by being
infeasible.
-/

set_option autoImplicit false

namespace ExactPenalty

open Linear Matrix

variable {σ : Type} {n : Nat}

/-! ## One attempt -/

namespace IterationContext

variable {it : IterationContext σ ℝ n} {level : Level} {left : Nat} {c c' : Climb ℝ n} {μ μ' : ℝ}
    {s s' : Session σ ℝ n}

/-- The matrices of an iteration are positive definite, and programs over boxes are solved
exactly. -/
structure IsSound (it : IterationContext σ ℝ n) : Prop where
  exact : QpService.ExactOnBoxes it.env.solve
  curvature : it.curvature.toMatrix.PosDef
  conditioned : it.conditioned.toMatrix.PosDef

theorem IsSound.makeDirection_cases (hit : it.IsSound) (hlevel : level ≠ .random)
    {result : Except (DirectionError ℝ n) (Direction ℝ n)}
    (h : it.makeDirection level μ s = (result, s')) :
    (∃ e, result = .error (.qp e) ∧ it.Steers level) ∨
      (result = .error .degenerate ∧
        (¬ it.Steers level → (it.observation.penaltyGradAt μ).get = 0)) ∨
      ∃ d, result = .ok d ∧ d.vector.get ≠ 0 ∧ d.slope < 0 := by
  have hresult := congrArg Prod.fst h
  rw [fst_makeDirection] at hresult
  dsimp only at hresult
  rw [← hresult]
  exact DirectionContext.result_cases _ _ _ _ _ hit.exact hit.curvature hit.conditioned hlevel

/-- No attempt of the iteration makes a direction that does not descend. -/
theorem IsSound.slope_neg_of_notes (hit : it.IsSound) {attempt : DirectionAttempt ℝ n}
    (h : it.Notes (.attempted attempt)) (hlevel : attempt.level ≠ .random) :
    (∀ d, attempt.result ≠ .error (.nonDescent d)) ∧
      ∀ d, attempt.result = .ok d → d.vector.get ≠ 0 ∧ d.slope < 0 := by
  obtain ⟨level, μ, g, w, rfl⟩ := h
  rw [DirectionContext.level_attempt] at hlevel
  have hcases := DirectionContext.result_cases it.env.solve it.options μ g w hit.exact hit.curvature
    hit.conditioned hlevel
  refine ⟨fun d hd ↦ ?_, fun d hd ↦ ?_⟩
  · rw [hd] at hcases
    rcases hcases with ⟨_, h, -⟩ | ⟨h, -⟩ | ⟨_, h, -⟩ <;> cases h
  · rw [hd] at hcases
    rcases hcases with ⟨_, h, -⟩ | ⟨h, -⟩ | ⟨_, h, hslope⟩
    · cases h
    · cases h
    · cases h
      exact hslope

/-- A plain rung fails for want of a descent direction only where the gradient vanishes. -/
theorem IsSound.gradient_eq_zero (hit : it.IsSound)
    (hlevel : level = .quasiNewton ∨ level = .steepestDescent)
    (h : it.Attempted level left c s (some (.failed .noDescent)) c' s') :
    c'.mu = c.mu ∧ (it.observation.penaltyGradAt c.mu).get = 0 := by
  have hrandom : level ≠ .random := by rintro rfl; simp at hlevel
  have hsteers : ¬ it.Steers level := by
    rintro ⟨huses, -⟩
    rcases hlevel with rfl | rfl <;> cases huses
  cases h with
  | nonDescent hd =>
    rcases hit.makeDirection_cases hrandom hd with ⟨_, h, -⟩ | ⟨h, -⟩ | ⟨_, h, -⟩ <;> cases h
  | degenerate hd =>
    rcases hit.makeDirection_cases hrandom hd with ⟨_, h, -⟩ | ⟨-, h⟩ | ⟨_, h, -⟩
    · cases h
    · exact ⟨rfl, h hsteers⟩
    · cases h
  | ascending hd hs hreason =>
    rcases hit.makeDirection_cases hrandom hd with ⟨_, h, -⟩ | ⟨h, -⟩ | ⟨_, h, -, hslope⟩
    · cases h
    · cases h
    · cases h
      obtain ⟨-, s₁, s₂, hsearch, -⟩ := searchAlong_eq hs
      rcases lineSearch_eq_error hsearch with ⟨hstopped, -⟩ | ⟨-, hnonneg⟩
      · cases hreason.symm.trans hstopped
      · exact absurd (hnonneg.1 hreason) hslope.not_ge

/-- **An iteration ends without a descent direction only where the gradient vanishes**, if the
highest permitted rung is a plain one. -/
theorem IsSound.gradient_eq_zero_of_run_eq_error (hit : it.IsSound) (hoptions : it.options.IsValid)
    (hmax : it.options.ladder.max = 2 ∨ it.options.ladder.max = 3)
    (h : it.run μ s = ((.error .noDescentDirection, μ'), s')) :
    (it.observation.penaltyGradAt μ').get = 0 := by
  obtain hlimit | ⟨failure, c, s₁, hclimb, rfl, hreason⟩ := reason_of_run_eq_error h
  · rcases RunContext.exhausted?_eq_some hlimit with hreason | ⟨hreason, -⟩ <;> cases hreason
  have hfailure : failure = .noDescent := by
    cases failure with
    | noDescent => rfl
    | qp => cases hreason
    | unbounded => cases hreason
    | unacceptable =>
      rw [ClimbFailure.termination] at hreason
      split_ifs at hreason
  subst hfailure
  have hstart := Ladder.isWithin_start hoptions.ladderMin_le_max hoptions.ladderMax_le it.engaged
  obtain ⟨a, s₂, ha, hattempt, ⟨-, hnext, -⟩ | ⟨hfailed, -⟩⟩ :=
    exists_last_attempt (P := fun a ↦ a.ladder.IsWithin it.options.ladder.max)
      (fun _ _ ↦ isWithin_climbRound) hstart hclimb
  · have hlevel := ha.plain_of_next_exhausted hmax hnext
    obtain ⟨hmu, hgrad⟩ := hit.gradient_eq_zero hlevel hattempt
    rw [hmu]
    exact hgrad
  · exact absurd rfl (hfailed _)

/-- Where the gradient vanishes, an attempt below the random rung fails and leaves the penalty
parameter alone. -/
theorem IsSound.attempted_of_gradient_eq_zero (hit : it.IsSound) (hlevel : level ≠ .random)
    (hgrad : ∀ ν, (it.observation.penaltyGradAt ν).get = 0) {e : Option (ClimbEnd ℝ n)}
    (h : it.Attempted level left c s e c' s') :
    c'.mu = c.mu ∧ (e = some (.failed .noDescent) ∨
      e = some (.failed .qp) ∧ level.usesSteering = true) := by
  have hno {d : Direction ℝ n} {s₁ : Session σ ℝ n}
      (hd : it.makeDirection level c.mu s = (.ok d, s₁)) : False := by
    rcases hit.makeDirection_cases hlevel hd with ⟨_, h, -⟩ | ⟨h, -⟩ | ⟨_, h, -, hslope⟩
    · cases h
    · cases h
    · cases h
      have hresult := congrArg Prod.fst hd
      rw [fst_makeDirection] at hresult
      obtain ⟨p, -, hcarries, -⟩ := DirectionContext.exists_proposal hresult
      rw [hcarries.slope_eq, dot_eq, hgrad, zero_dotProduct] at hslope
      exact lt_irrefl 0 hslope
  cases h with
  | qp hd =>
    rcases hit.makeDirection_cases hlevel hd with ⟨_, -, hsteers⟩ | ⟨h, -⟩ | ⟨_, h, -⟩
    · exact ⟨rfl, .inr ⟨rfl, hsteers.1⟩⟩
    · cases h
    · cases h
  | nonDescent hd => exact ⟨rfl, .inl rfl⟩
  | degenerate hd => exact ⟨rfl, .inl rfl⟩
  | moved hd => exact (hno hd).elim
  | stopped hd => exact (hno hd).elim
  | ascending hd => exact (hno hd).elim
  | unacceptable hd => exact (hno hd).elim
  | unbounded hd => exact (hno hd).elim
  | again hd => exact (hno hd).elim

/-- Conversely, where the gradient vanishes for every penalty parameter, an iteration ends without a
descent direction. -/
theorem IsSound.run_of_gradient_eq_zero (hit : it.IsSound) (hoptions : it.options.IsValid)
    (hmax : it.options.ladder.max = 2 ∨ it.options.ladder.max = 3)
    (hforce : it.options.forceMovement = false)
    (hgrad : ∀ ν, (it.observation.penaltyGradAt ν).get = 0) (μ : ℝ) (s : Session σ ℝ n) :
    ∃ s', it.run μ s = ((.error .noDescentDirection, μ), s') := by
  have hmax4 : it.options.ladder.max < 4 := by omega
  have hround (a b : ClimbStage σ ℝ n) (hab : it.climbRound a = .inl b)
      (ha : a.ladder.IsWithin it.options.ladder.max ∧ a.climb.mu = μ) :
      b.ladder.IsWithin it.options.ladder.max ∧ b.climb.mu = μ := by
    obtain ⟨hwithin, hmu⟩ := ha
    refine ⟨isWithin_climbRound hab hwithin, ?_⟩
    have hround := it.round_climbRound a
    rw [hab] at hround
    cases hround with
    | again h =>
      rcases (hit.attempted_of_gradient_eq_zero (hwithin.ne_random hmax4) hgrad h).2 with
        h | ⟨h, -⟩ <;> cases h
    | escalated h _ =>
      exact (hit.attempted_of_gradient_eq_zero (hwithin.ne_random hmax4) hgrad h).1.trans hmu
  have hstart := Ladder.isWithin_start hoptions.ladderMin_le_max hoptions.ladderMax_le it.engaged
  rcases hclimb : it.climbFrom (.start it.options.ladder it.engaged) (.start μ) s with ⟨⟨e, c⟩, s₁⟩
  obtain ⟨a, s₂, ⟨hwithin, hmu⟩, h, hended⟩ :=
    exists_last_attempt (P := fun a ↦ a.ladder.IsWithin it.options.ladder.max ∧ a.climb.mu = μ)
      hround ⟨hstart, rfl⟩ hclimb
  obtain ⟨hmu', he⟩ := hit.attempted_of_gradient_eq_zero (hwithin.ne_random hmax4) hgrad h
  have hfailed : e = .failed .noDescent := by
    rcases he with he | ⟨he, huses⟩
    · exact Option.some.inj he
    · cases he
      obtain ⟨-, hnext, -⟩ | ⟨hfailed, -⟩ := hended
      · rcases hwithin.plain_of_next_exhausted hmax hnext with hlevel | hlevel <;>
          rw [hlevel] at huses <;> cases huses
      · exact absurd rfl (hfailed _)
  rw [run, Action.bind_apply, hclimb, hfailed]
  dsimp only
  rw [if_neg (Bool.eq_false_iff.1 hforce), ← hmu, ← hmu']
  exact ⟨s₁, rfl⟩

end IterationContext

/-! ## Stationarity -/

namespace RunContext

variable {run : RunContext σ ℝ n} {a : Stage σ ℝ n}

/-- A run converges at a feasible iterate whose gradient vanishes. -/
theorem test_of_gradient_eq_zero (hoptions : run.options.IsValid)
    (hgrad : a.progress.current.penaltyGrad.get = 0)
    (hfeasible : a.progress.current.isFeasible run.options.stopping.ineqTol
      run.options.stopping.eqTol = true) : run.test a = some .converged := by
  have hvalue : (run.stationarity a).value ≤ 0 := by
    refine (GradientBundle.value_measure_le _ _ _ _ _ _).trans_eq ?_
    rw [norm₂_eq, Mat.get_mulVec, hgrad, mulVec_zero, dotProduct_zero, Real.sqrt_zero]
  have hstationary : run.options.stopping.optTol.AtLeast (run.stationarity a).value :=
    Extended.AtLeast.mono hoptions.optTol_nonneg hvalue
  rw [test, stoppingTest, if_pos hfeasible, if_pos hstationary]

/-- An iterate that the run does not stop at is infeasible if its gradient vanishes. -/
theorem isFeasible_eq_false_of_test (hoptions : run.options.IsValid) (htest : run.test a = none)
    (hgrad : a.progress.current.penaltyGrad.get = 0) :
    a.progress.current.isFeasible run.options.stopping.ineqTol run.options.stopping.eqTol
      = false := by
  by_contra hfeasible
  have hconverged := test_of_gradient_eq_zero hoptions hgrad (Bool.not_eq_false _ ▸ hfeasible)
  cases htest.symm.trans hconverged

theorem isSound_climber (hsolve : QpService.ExactOnBoxes run.env.solve)
    (heigen : EigenMethod.IsExact run.env.eigen) (ha : a.progress.curvature.IsDefinite) :
    (run.climber a).IsSound :=
  ⟨hsolve, ha.posDef, posDef_conditioned heigen ha⟩

/-- What it means for a run to end without a descent direction at a stage. -/
theorem final_of_iterateOnce (hoptions : run.options.IsValid) (ha : (run.climber a).IsSound)
    (hmax : run.options.ladder.max = 2 ∨ run.options.ladder.max = 3)
    {r : RunResult ℝ n × Session σ ℝ n} (h : run.iterateOnce a = .inr r)
    (hreason : r.1.termination = .noDescentDirection) :
    r.1.final.penaltyGrad.get = 0 ∧ (a.progress.current.mu = r.1.final.mu →
      r.1.final.isFeasible run.options.stopping.ineqTol run.options.stopping.eqTol = false) := by
  obtain ⟨htest, -, -, s, hrun, -⟩ := exists_run_of_isTotalFailure h (hreason ▸ rfl)
  rw [hreason] at hrun
  have hgrad : (a.progress.current.penaltyGradAt r.1.final.mu).get = 0 :=
    ha.gradient_eq_zero_of_run_eq_error hoptions hmax hrun
  obtain ⟨-, -, -, hfinal, -⟩ := result_of_iterateOnce (r := r.1) (s := r.2) h
  rw [hfinal]
  refine ⟨hgrad, fun hmu ↦ isFeasible_eq_false_of_test hoptions htest ?_⟩
  rw [Iterate.penaltyGrad, hmu]
  exact hgrad

end RunContext

/-! ## Whole runs -/

section Runs

variable {env : Environment σ ℝ n} {options : Options ℝ} {x₀ : Vector ℝ n} {world : σ}
    {r : RunResult ℝ n} {s : Session σ ℝ n}

/-- **A run ends without a descent direction only where the penalty function is stationary**, if the
highest permitted rung is a plain one; and at an infeasible iterate, if the penalty parameter is the
one that the iterate was recorded with.  In no run does any rung below the random one make a
direction that does not descend. -/
theorem noDescentDirection_only_where_stationary (heigen : EigenMethod.IsExact env.eigen)
    (hsolve : QpService.ExactOnBoxes env.solve)
    (hrun : minimize env options x₀ world = (.ok r, s)) :
    (options.ladder.max = 2 ∨ options.ladder.max = 3 → r.termination = .noDescentDirection →
      r.final.penaltyGrad.get = 0 ∧
      ∀ last, r.history.back? = some last → last.iterate.mu = r.final.mu →
        r.final.isFeasible options.stopping.ineqTol options.stopping.eqTol = false) ∧
    ∀ attempt, .attempted attempt ∈ s.transcript → attempt.level ≠ .random →
      (∀ d, attempt.result ≠ .error (.nonDescent d)) ∧
      ∀ d, attempt.result = .ok d → d.vector.get ≠ 0 ∧ d.slope < 0 := by
  obtain ⟨hoptions, -, first, as, -, -, -, hpath⟩ := minimize_eq_ok hrun
  have hdefinite : ∀ a ∈ Stage.initial env options first world :: as,
      a.progress.curvature.IsDefinite :=
    hpath.forall_mem (fun _ _ _ h ha ↦ RunContext.isDefinite_of_iterateOnce h ha)
      (Curvature.isDefinite_initial n options.curvature)
  refine ⟨fun hmax hreason ↦ ?_, fun attempt hmem hlevel ↦ ?_⟩
  · obtain ⟨a, ha, hlast⟩ := hpath.exists_last
    obtain ⟨hgrad, hfeasible⟩ := RunContext.final_of_iterateOnce hoptions
      (RunContext.isSound_climber hsolve heigen (hdefinite a ha)) hmax hlast hreason
    refine ⟨hgrad, fun last hback hmu ↦ hfeasible ?_⟩
    obtain ⟨-, hhistory, -⟩ := RunContext.result_of_iterateOnce hlast
    rw [hhistory] at hback
    cases Array.back?_push.symm.trans hback
    exact hmu
  · have hstart (attempt : DirectionAttempt ℝ n) :
        .attempted attempt ∉ (Stage.initial env options first world).session.transcript := by
      show .attempted attempt ∉ ((#[] : Array (Event ℝ n)).push _).push _
      simp
    obtain ⟨a, ha, hnotes⟩ := RunContext.exists_climber_of_attempted hpath hstart hmem
    exact (RunContext.isSound_climber hsolve heigen (hdefinite a ha)).slope_neg_of_notes hnotes
      hlevel

end Runs

/-! ## A run on a plateau -/

/-- On the line, a constant objective and an inequality that is violated by one everywhere, in exact
arithmetic throughout. -/
noncomputable def plateau : Environment Unit ℝ 1 where
  evaluate _ := pure
    { value := 0
      grad := #[0]
      ineq := [1]
      ineqGrad := ⟨1, [.replicate 1 0]⟩
      eq := []
      eqGrad := ⟨1, []⟩ }
  solve := QpService.exact
  eigen := EigenMethod.exact
  elapsed _ := 0

/-- What the plateau answers. -/
noncomputable def plateauAt (x : Vector ℝ 1) : Observation ℝ 1 where
  point := x
  value := 0
  grad := .replicate 1 0
  ineq := [⟨1, .replicate 1 0⟩]
  eq := []

@[inherit_doc plateau]
noncomputable def plateauRun : RunContext Unit ℝ 1 := ⟨plateau, .standard, (1, 0)⟩

/-- The stage at which a run on the plateau begins, and ends. -/
noncomputable def plateauStart : Stage Unit ℝ 1 :=
  .initial plateau .standard (plateauAt (.replicate 1 0)) ()

theorem toObservation?_plateau (x : Vector ℝ 1) :
    (plateau.evaluate x ()).1.toObservation? x = some (plateauAt x) := rfl

theorem penaltyGradAt_plateau (x : Vector ℝ 1) (μ : ℝ) :
    ((plateauAt x).penaltyGradAt μ).get = 0 := by
  have hviolation : (plateauAt x).violationGrad = Vector.replicate 1 0 + Vector.replicate 1 0 :=
    if_pos (one_pos : (0 : ℝ) < 1)
  rw [Observation.penaltyGradAt, hviolation, get_add, get_add, get_scale, get_replicate_zero]
  show μ • (Vector.replicate 1 (0 : ℝ)).get + (0 + 0) = 0
  rw [get_replicate_zero, smul_zero, add_zero, add_zero]

theorem isFeasible_plateau (x : Vector ℝ 1) (eqTol : Extended ℝ) :
    (plateauAt x).isFeasible (.finite 0) eqTol = false := by
  have hviolation : (plateauAt x).tvIneq = 1 := by
    show Scalar.larger (0 : ℝ) 1 = 1
    rw [Scalar.larger_real, max_eq_right zero_le_one]
  rw [Observation.isFeasible, hviolation]
  exact decide_eq_false fun h ↦ absurd h.1 (not_le.2 (one_pos : (0 : ℝ) < 1))

/-- The first iteration on the plateau is the last one. -/
theorem iterateOnce_plateauStart : ∃ s, plateauRun.iterateOnce plateauStart
    = .inr (plateauRun.ending plateauStart 1 .noDescentDirection s) := by
  have htest : plateauRun.test plateauStart = none := if_neg (by
    rw [Bool.not_eq_true]
    exact isFeasible_plateau _ _)
  have hit : (plateauRun.climber plateauStart).IsSound :=
    RunContext.isSound_climber QpService.exact_exactOnBoxes EigenMethod.exact_isExact
      (Curvature.isDefinite_initial 1 _)
  obtain ⟨s, hrun⟩ := hit.run_of_gradient_eq_zero Options.isValid_standard (.inr rfl) rfl
    (penaltyGradAt_plateau _) 1 (plateauRun.entered plateauStart)
  exact ⟨s, RunContext.iterateOnce_of_run_eq_error htest (Nat.succ_ne_zero 999) rfl hrun⟩

/-- On the plateau a run ends where it begins. -/
theorem noDescentDirection_only_where_stationary_plateau :
    EigenMethod.IsExact plateau.eigen ∧ QpService.ExactOnBoxes plateau.solve ∧
    ∃ r s, minimize plateau .standard (.replicate 1 0) () = (.ok r, s) ∧
      r.termination = .noDescentDirection ∧ r.final.penaltyGrad.get = 0 ∧
      r.final.isFeasible (.finite 0) (.finite 1e-6) = false := by
  refine ⟨EigenMethod.exact_isExact, QpService.exact_exactOnBoxes, ?_⟩
  obtain ⟨r, s, hrun⟩ : ∃ r s, minimize plateau .standard (.replicate 1 0) () = (.ok r, s) :=
    exists_minimize_eq_ok Options.isValid_standard one_ne_zero (toObservation?_plateau _)
      (by simp [Observation.isFinite, plateauAt, Constraint.isFinite]) (Linear.allFinite_real _)
  obtain ⟨-, -, first, as, hfirst, -, -, hpath⟩ := minimize_eq_ok hrun
  rw [toObservation?_plateau] at hfirst
  cases hfirst
  obtain ⟨s', hlast⟩ := iterateOnce_plateauStart
  cases hpath with
  | cons h => cases hlast.symm.trans h
  | last h =>
    have hr := Sum.inr.inj (h.symm.trans hlast)
    have hreason : r.termination = .noDescentDirection := congrArg (·.1.termination) hr
    obtain ⟨hgrad, hfeasible⟩ := (noDescentDirection_only_where_stationary
      EigenMethod.exact_isExact QpService.exact_exactOnBoxes hrun).1 (.inr rfl) hreason
    refine ⟨r, s, hrun, hreason, hgrad, hfeasible (plateauRun.record plateauStart) ?_ ?_⟩
    · exact (congrArg (·.1.history.back?) hr).trans Array.back?_push
    · exact (congrArg (·.1.final.mu) hr).symm

end ExactPenalty
