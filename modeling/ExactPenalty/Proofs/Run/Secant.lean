import Mathlib
import ExactPenalty.Proofs.Run.Decrease
import ExactPenalty.Proofs.Run.Transcript

/-!
# The curvature of secant pairs

The weak Wolfe search accepts a step only where the slope along the direction has risen, and the rise
of the slope is what the secant pair of the step measures.  All of this is about one penalty function
at a time: the direction, its slope, the search and both gradients of the pair must be taken at the
same penalty parameter, although steering and reattempts may have lowered it several times since the
iterate was recorded.  That they are is `IterationContext.exists_search_of_run_eq_ok`.

So every step that such a search accepts gives a pair of positive curvature, and the pair is refused
only if its curvature is below what rounding could make of its norms (`secant_pairs_have_curvature`).
-/

set_option autoImplicit false

namespace ExactPenalty

open Linear Matrix

variable {σ : Type} {n : Nat}

/-! ## Secant pairs -/

section Pairs

variable {R : Type} [Scalar R]

/-- The displacement from one iterate to another. -/
def Iterate.displacement (a b : Iterate R n) : Vector R n := b.point - a.point

/-- The change of the gradient of the penalty function from one iterate to another, at the penalty
parameter of the latter. -/
def Iterate.gradChange (a b : Iterate R n) : Vector R n :=
  b.penaltyGrad - a.penaltyGradAt b.mu

end Pairs

/-- The curvature of a secant pair along a direction is the rise of the slope, times the step. -/
theorem Iterate.dot_displacement_gradChange {a b : Iterate ℝ n} {d : Vector ℝ n} {t : ℝ}
    (hpoint : b.point = along a.point d t) :
    dot (a.displacement b) (a.gradChange b)
      = t * (dot b.penaltyGrad d - dot (a.penaltyGradAt b.mu) d) := by
  simp only [displacement, gradChange, hpoint, dot_eq, get_sub, get_along, add_sub_cancel_left,
    smul_dotProduct, smul_eq_mul, dotProduct_sub, dotProduct_comm d.get, mul_sub]

/-- The weak Wolfe condition on the slope bounds the curvature of the pair from below. -/
theorem Iterate.lt_dot_displacement_gradChange {a b : Iterate ℝ n} {d : Vector ℝ n} {t slope c : ℝ}
    (hpoint : b.point = along a.point d t) (ht : 0 < t)
    (hslope : slope = dot (a.penaltyGradAt b.mu) d) (hneg : slope < 0)
    (hwolfe : c * slope < dot b.penaltyGrad d) :
    (1 - c) * t * |slope| < dot (a.displacement b) (a.gradChange b) := by
  rw [dot_displacement_gradChange hpoint, ← hslope, abs_of_neg hneg]
  calc (1 - c) * t * -slope = t * (c * slope - slope) := by ring
    _ < t * (dot b.penaltyGrad d - slope) := by gcongr

/-! ## One iteration -/

theorem Climb.mu_lowered {c : Climb ℝ n} {d : Direction ℝ n} (h : d.mu ≤ c.mu) :
    (c.lowered d).mu = d.mu := by
  rw [lowered]
  split_ifs with hlt
  · rfl
  · exact le_antisymm (not_lt.1 hlt) h

namespace IterationContext

variable {μ μ' : ℝ} {move : Move ℝ n} {s s' : Session σ ℝ n}

/-- **The search behind a step that is not forced.**  Its slope is that of the penalty function at the
penalty parameter after the step, and at that penalty parameter the slope has risen at the target. -/
theorem exists_search_of_run_eq_ok (it : IterationContext σ ℝ n) (hoptions : it.options.IsValid)
    (hback : it.options.search.backtracking = false)
    (hlimit : it.options.search.nondescentLimit = 0) (hμ : 0 < μ)
    (hfactor : 0 < it.reattempts.factor) (hforced : move.forced = false)
    (h : it.run μ s = ((.ok move, μ'), s')) :
    ∃ task out, .searched task (.ok out) ∈ s'.transcript ∧ task.start = it.observation ∧
      task.mu = μ' ∧ out.trial = ⟨move.step, move.target.weighed μ'⟩ ∧ 0 < move.step ∧
      move.target.point = along it.observation.point task.direction move.step ∧
      task.slope = dot (it.observation.penaltyGradAt μ') task.direction ∧ task.slope < 0 ∧
      it.options.search.curvature * task.slope
        < dot (move.target.penaltyGradAt μ') task.direction := by
  obtain ⟨a, d, s₁, out, c, ha, hd, hs, rfl, rfl⟩ :=
    exists_accepted (P := fun a ↦ it.Shrinks (.start μ, s) (a.climb, a.session))
      (fun _ _ hab ha ↦ trans_of it.Shrinks ha (shrinks_climbRound hab)) (refl_of it.Shrinks _)
      hforced h
  obtain ⟨_, _, -, hshrunk, -⟩ := ha
  have hle : d.mu ≤ a.climb.mu := mu_le_of_makeDirection_eq_ok
    (hshrunk.pos hfactor hoptions.shrinkFactor.1 hμ) hoptions.shrinkFactor hd
  obtain ⟨rfl, s₂, s₃, hsearch, rfl, -⟩ := searchAlong_eq hs
  rw [lineSearch, hback] at hsearch
  obtain ⟨step, s₄, observation, hlook, htrial, hstep, -, hwolfe⟩ :=
    weakWolfe_eq_ok hoptions.initialStep_pos hsearch
  obtain ⟨-, hanswer, -⟩ := RunContext.lookUp_eq_evaluated hlook
  have hpoint := (Evaluation.eq_of_toObservation?_eq_some hanswer).1
  have hresult := congrArg Prod.fst hd
  rw [fst_makeDirection] at hresult
  obtain ⟨p, -, hcarries, -⟩ := DirectionContext.exists_proposal hresult
  refine ⟨it.task (a.climb.lowered d) d, out, Array.mem_push_self, rfl, rfl, ?_, ?_, ?_, ?_, ?_, ?_⟩
  · show out.trial = ⟨out.trial.step, out.trial.iterate.weighed (a.climb.lowered d).mu⟩
    rw [htrial]
    rfl
  · show 0 < out.trial.step
    rw [htrial]
    exact hstep
  · show out.trial.iterate.point = along it.observation.point d.vector out.trial.step
    rw [htrial]
    exact hpoint
  · show d.slope = dot (it.observation.penaltyGradAt (a.climb.lowered d).mu) d.vector
    rw [Climb.mu_lowered hle]
    exact hcarries.slope_eq
  · exact slope_neg_of_makeDirection_eq_ok hlimit hd
  · show _ < dot (out.trial.iterate.penaltyGradAt (a.climb.lowered d).mu) d.vector
    rw [htrial] at hwolfe ⊢
    exact hwolfe

end IterationContext

/-! ## Consecutive stages -/

/-- The pair is used unless its curvature is too small for its norms, and then it is refused for that
reason. -/
theorem Curvature.fst_update_cases (c : Curvature ℝ n) (s y : Vector ℝ n) :
    (Scalar.epsilon * (norm₂ s * norm₂ y) < dot s y →
      (c.update s y).1 = .applied ∨ (c.update s y).1 = .damped) ∧
    (dot s y ≤ Scalar.epsilon * (norm₂ s * norm₂ y) →
      (c.update s y).1 = .skippedCurvature (dot s y)) := by
  refine ⟨fun hlt ↦ ?_, fun hle ↦ by rw [update_of_le hle]⟩
  rw [update_of_lt hlt]
  dsimp only
  split_ifs
  · exact .inr rfl
  · exact .inl rfl

namespace RunContext

variable {run : RunContext σ ℝ n} {a b : Stage σ ℝ n}

/-- The step from a stage to the next one is the one that a search accepted: from the iterate of the
one to that of the other, along a direction with the given slope of the penalty function at the
penalty parameter after the step. -/
structure Accepted (a b : Stage σ ℝ n) (step : StepRecord ℝ) (task : SearchTask ℝ n)
    (out : SearchOutcome ℝ n) : Prop where
  start_eq : task.start = a.progress.current.toObservation
  mu_eq : task.mu = step.mu
  slope_eq : task.slope = dot (a.progress.current.penaltyGradAt step.mu) task.direction
  trial_eq : out.trial = ⟨step.step, b.progress.current⟩
  current_mu_eq : b.progress.current.mu = step.mu
  point_eq : b.progress.current.point = along a.progress.current.point task.direction step.step

/-- **The secant pair of a step that is not forced has curvature.** -/
theorem secant_of_iterateOnce (hoptions : run.options.IsValid)
    (hback : run.options.search.backtracking = false)
    (hlimit : run.options.search.nondescentLimit = 0) (hmu : 0 < a.progress.current.mu)
    (h : run.iterateOnce a = .inl b) {step : StepRecord ℝ} (hstep : b.progress.step = some step)
    (hforced : step.forced = false) :
    ∃ task out, .searched task (.ok out) ∈ b.session.transcript ∧ Accepted a b step task out ∧
      a.progress.curvature.update (a.progress.current.displacement b.progress.current)
        (a.progress.current.gradChange b.progress.current) = (step.update, b.progress.curvature) ∧
      0 < (1 - run.options.search.curvature) * step.step * |task.slope| ∧
      (1 - run.options.search.curvature) * step.step * |task.slope|
        < dot (a.progress.current.displacement b.progress.current)
          (a.progress.current.gradChange b.progress.current) := by
  obtain ⟨move, μ, s, -, hrun, rfl⟩ := exists_move h
  cases hstep
  obtain ⟨task, out, hmem, hstart, htask, htrial, hpos, hpoint, hslope, hneg, hwolfe⟩ :=
    (run.climber a).exists_search_of_run_eq_ok hoptions hback hlimit hmu
      (reattemptFactor_climber hoptions a).1 hforced hrun
  have hcurvature : 0 < 1 - run.options.search.curvature := sub_pos.2 hoptions.curvature_lt_one
  have hlength : 0 < |task.slope| := abs_pos.2 hneg.ne
  exact ⟨task, out, Array.mem_push_of_mem _ hmem, ⟨hstart, htask, hslope, htrial, rfl, hpoint⟩, rfl,
    mul_pos (mul_pos hcurvature hpos) hlength,
    Iterate.lt_dot_displacement_gradChange hpoint hpos hslope hneg hwolfe⟩

end RunContext

/-! ## Whole runs -/

/-- **Secant pairs have curvature.**  With the weak Wolfe search, which is not let loose along
directions that do not descend, every step that is not forced is one that a search accepted.  The
pair that it offers to the curvature matrix, at the penalty parameter after the step, has a curvature
of more than `(1 - c) t |φ'|`, for the step `t` along a direction of slope `φ'` and the constant `c`
of the slope test.  So the pair is used, damped or not, unless its curvature is too small for its
norms. -/
theorem secant_pairs_have_curvature {env : Environment σ ℝ n} {options : Options ℝ}
    {x₀ : Vector ℝ n} {world : σ} {r : RunResult ℝ n} {s : Session σ ℝ n}
    (hback : options.search.backtracking = false) (hlimit : options.search.nondescentLimit = 0)
    (hrun : minimize env options x₀ world = (.ok r, s)) :
    ∃ (run : RunContext σ ℝ n) (first : Observation ℝ n) (as : List (Stage σ ℝ n)),
      run = ⟨env, options, first.shape⟩ ∧
      Path run.iterateOnce (.initial env options first world :: as) (r, s) ∧
      r.history.toList = (Stage.initial env options first world :: as).map run.record ∧
      (Stage.initial env options first world :: as).IsChain fun a b ↦
        ∀ step, (run.record b).step = some step → step.forced = false →
          ∃ task out, .searched task (.ok out) ∈ s.transcript ∧
            RunContext.Accepted a b step task out ∧
            ∃ sv yv, sv = (run.record a).iterate.displacement (run.record b).iterate ∧
              yv = (run.record a).iterate.gradChange (run.record b).iterate ∧
              a.progress.curvature.update sv yv = (step.update, b.progress.curvature) ∧
              0 < (1 - options.search.curvature) * step.step * |task.slope| ∧
              (1 - options.search.curvature) * step.step * |task.slope| < dot sv yv ∧
              (Scalar.epsilon * (norm₂ sv * norm₂ yv) < dot sv yv →
                step.update = .applied ∨ step.update = .damped) ∧
              (dot sv yv ≤ Scalar.epsilon * (norm₂ sv * norm₂ yv) →
                step.update = .skippedCurvature (dot sv yv)) := by
  obtain ⟨hoptions, -, first, as, -, -, -, hpath⟩ := minimize_eq_ok hrun
  refine ⟨_, first, as, rfl, hpath, RunContext.history_of_path hpath, ?_⟩
  have hmu := hpath.forall_mem (P := fun a ↦ 0 < a.progress.current.mu)
    (fun _ _ _ h hmu ↦ RunContext.mu_pos_of_iterateOnce hoptions h hmu) hoptions.mu0_pos
  refine hpath.isChain.imp_of_mem_imp fun a b ha hb hround step hstep hforced ↦ ?_
  obtain ⟨task, out, hmem, haccepted, hupdate, hpos, hlt⟩ :=
    RunContext.secant_of_iterateOnce hoptions hback hlimit (hmu a ha) hround hstep hforced
  have hcases := a.progress.curvature.fst_update_cases
    (a.progress.current.displacement b.progress.current)
    (a.progress.current.gradChange b.progress.current)
  rw [hupdate] at hcases
  exact ⟨task, out, (RunContext.continues_of_path hpath hb).mem hmem, haccepted, _, _, rfl, rfl,
    hupdate, hpos, hlt, hcases⟩

/-- The first step of a run down the parabola gives a pair with curvature. -/
theorem secant_pairs_have_curvature_parabola :
    (Options.standard : Options ℝ).search.backtracking = false ∧
    (Options.standard : Options ℝ).search.nondescentLimit = 0 ∧
    ∃ r s, minimize parabola .standard (.replicate 1 1) () = (.ok r, s) ∧
      ∃ a b rest, r.history.toList = a :: b :: rest ∧
        0 < dot (a.iterate.displacement b.iterate) (a.iterate.gradChange b.iterate) := by
  obtain ⟨r, s, hrun, hlength⟩ := exists_minimize_parabola_two_le
  refine ⟨rfl, rfl, r, s, hrun, ?_⟩
  have hforced := isForced_eq_false rfl hrun
  obtain ⟨run, first, as, -, hpath, hhistory, hchain⟩ := secant_pairs_have_curvature rfl rfl hrun
  cases hpath with
  | last => simp [hhistory] at hlength
  | cons hround =>
    obtain ⟨move, μ, s', -, -, rfl⟩ := RunContext.exists_move hround
    have hunforced := hforced (run.record (run.following _ move μ s')) <| by
      rw [hhistory]
      exact List.mem_cons_of_mem _ List.mem_cons_self
    obtain ⟨task, out, -, -, _, _, rfl, rfl, -, hpos, hlt, -⟩ :=
      (List.isChain_cons_cons.1 hchain).1 _ rfl hunforced
    exact ⟨_, _, _, hhistory, hpos.trans hlt⟩

end ExactPenalty
