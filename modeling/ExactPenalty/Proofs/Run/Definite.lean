import Mathlib
import ExactPenalty.Proofs.Conditioning
import ExactPenalty.Proofs.Curvature
import ExactPenalty.Proofs.Quadratic
import ExactPenalty.Proofs.Run.Iterations

/-!
# The matrices of a run are positive definite

The curvature matrix starts as the identity and changes only by updates, whatever steps a run takes;
and what the quadratic programs get is that matrix with its spectrum clipped.
-/

set_option autoImplicit false

namespace ExactPenalty

open Matrix

variable {n : Nat}

namespace RunContext

variable {σ : Type} {run : RunContext σ ℝ n} {a b : Stage σ ℝ n}

theorem isDefinite_of_iterateOnce (h : run.iterateOnce a = .inl b)
    (ha : a.progress.curvature.IsDefinite) : b.progress.curvature.IsDefinite := by
  obtain ⟨move, μ, s, -, -, rfl⟩ := exists_move h
  exact ha.update _ _

theorem posDef_conditioned (heigen : EigenMethod.IsExact run.env.eigen)
    (ha : a.progress.curvature.IsDefinite) : (run.conditioned a).toMatrix.PosDef :=
  posDef_condition heigen _ ha.posDef

end RunContext

/-! ## A parabola -/

/-- Half the square on the line, without constraints, in exact arithmetic throughout. -/
noncomputable def parabola : Environment Unit ℝ 1 where
  evaluate x := pure
    { value := 0.5 * Linear.dot x x
      grad := x.toArray
      ineq := []
      ineqGrad := ⟨1, []⟩
      eq := []
      eqGrad := ⟨1, []⟩ }
  solve := QpService.exact
  eigen := EigenMethod.exact
  elapsed _ := 0

/-- What the parabola answers. -/
noncomputable def parabolaAt (x : Vector ℝ 1) : Observation ℝ 1 where
  point := x
  value := 0.5 * Linear.dot x x
  grad := x
  ineq := []
  eq := []

theorem toObservation?_parabola (x : Vector ℝ 1) :
    (parabola.evaluate x ()).1.toObservation? x = some (parabolaAt x) := by
  have hgrad : (parabola.evaluate x ()).1.grad.size = 1 := x.size_toArray
  rw [Evaluation.toObservation?, dif_pos hgrad]
  rfl

theorem isFinite_parabolaAt (x : Vector ℝ 1) : (parabolaAt x).isFinite = true := by
  simp [Observation.isFinite, parabolaAt]

theorem exists_minimize_parabola :
    ∃ r s, minimize parabola Options.standard (Vector.replicate 1 1) () = (.ok r, s) :=
  exists_minimize_eq_ok Options.isValid_standard one_ne_zero (toObservation?_parabola _)
    (isFinite_parabolaAt _) (Linear.allFinite_real _)

/-! ## The matrices of a run -/

/-- **Curvature matrices stay positive definite.**  They are after any number of updates with any
pairs, whatever the options; and at every stage that a run passes, the matrix that is stored is
positive definite, and with an exact eigenvalue method so is the conditioned one, which is what the
quadratic programs get. -/
theorem curvature_stays_posDef :
    (∀ (o : CurvatureOptions ℝ) (pairs : List (Vector ℝ n × Vector ℝ n)),
      ((Curvature.initial n o).after pairs).matrix.toMatrix.PosDef) ∧
    (∀ {σ : Type} {env : Environment σ ℝ n} {options : Options ℝ} {x₀ : Vector ℝ n} {world : σ}
      {r : RunResult ℝ n} {s : Session σ ℝ n}, minimize env options x₀ world = (.ok r, s) →
      ∃ (run : RunContext σ ℝ n) (first : Observation ℝ n) (as : List (Stage σ ℝ n)),
        run = ⟨env, options, first.shape⟩ ∧
        Path run.iterateOnce (.initial env options first world :: as) (r, s) ∧
        r.history.toList = (Stage.initial env options first world :: as).map run.record ∧
        ∀ a ∈ Stage.initial env options first world :: as,
          (run.climber a).curvature.toMatrix.PosDef ∧
          (EigenMethod.IsExact env.eigen → (run.climber a).conditioned.toMatrix.PosDef)) := by
  refine ⟨fun o pairs ↦ ((Curvature.isDefinite_initial n o).after pairs).posDef, ?_⟩
  intro σ env options x₀ world r s hrun
  obtain ⟨-, -, first, as, -, -, -, hpath⟩ := minimize_eq_ok hrun
  have hdefinite : ∀ a ∈ Stage.initial env options first world :: as,
      a.progress.curvature.IsDefinite :=
    hpath.forall_mem (fun _ _ _ h ha ↦ RunContext.isDefinite_of_iterateOnce h ha)
      (Curvature.isDefinite_initial n options.curvature)
  refine ⟨_, first, as, rfl, hpath, RunContext.history_of_path hpath, fun a ha ↦ ?_⟩
  exact ⟨(hdefinite a ha).posDef, fun heigen ↦ RunContext.posDef_conditioned heigen (hdefinite a ha)⟩

/-- The matrices of a run down the parabola. -/
theorem curvature_stays_posDef_parabola :
    EigenMethod.IsExact parabola.eigen ∧
    ∃ r s, minimize parabola Options.standard (Vector.replicate 1 1) () = (.ok r, s) ∧
      ∃ (run : RunContext Unit ℝ 1) (stages : List (Stage Unit ℝ 1)),
        r.history.toList = stages.map run.record ∧
        ∀ a ∈ stages, (run.climber a).curvature.toMatrix.PosDef ∧
          (run.climber a).conditioned.toMatrix.PosDef := by
  obtain ⟨r, s, hrun⟩ := exists_minimize_parabola
  obtain ⟨run, first, as, -, -, hhistory, hposDef⟩ :=
    curvature_stays_posDef.2 hrun
  refine ⟨EigenMethod.exact_isExact, r, s, hrun, run, _, hhistory, fun a ha ↦ ?_⟩
  exact ⟨(hposDef a ha).1, (hposDef a ha).2 EigenMethod.exact_isExact⟩

end ExactPenalty
