import Mathlib
import ExactPenalty.Proofs.Quadratic
import ExactPenalty.Proofs.Run.Decrease
import ExactPenalty.Proofs.Run.Remembered
import ExactPenalty.Proofs.Run.Stationary
import ExactPenalty.Proofs.Run.Stopping

/-!
# The certificate of convergence

Where the penalty function has kinks, a short gradient is not to be had.  What a converged run has found is
a short convex combination of gradients at points close to the last one: `converged_certificate` says where
these points come from, and which matrix measures the length.

The measure is the length of a combination whatever becomes of the quadratic program
(`GradientBundle.exists_combination`): of the one that the solver answers, or else of the current gradient
alone, which stands for itself where there is no other point, no answer or no shorter combination.  All that
is asked of the solver is that the weights it answers are weights (`QpService.StaysInSimplex`); they need
not solve the program.
-/

set_option autoImplicit false

namespace ExactPenalty

open Linear Matrix

variable {σ : Type} {n : Nat}

/-! ## Combinations -/

/-- What the service answers to a program over the unit simplex lies in it. -/
def QpService.StaysInSimplex (solve : QpService σ ℝ) : Prop :=
  ∀ {m : Nat} {qp : QuadraticProgram ℝ m} {s : σ} {y : Vector ℝ m}, qp.feasible = .simplex →
    (solve qp s).1 = .ok y → qp.feasible.Contains y

theorem QpService.exact_staysInSimplex : QpService.exact.StaysInSimplex := by
  intro m qp s y _ h
  rw [exact] at h
  dsimp only at h
  split_ifs at h with hex
  cases h
  exact hex.choose_spec.contains

/-! ## The measure -/

namespace GradientBundle

/-- **The measure is the length of a convex combination** of the current gradient and those nearby,
whether or not the program has an answer. -/
theorem exists_combination {solve : QpService σ ℝ} (hsolve : solve.StaysInSimplex)
    (b : GradientBundle ℝ n) (it : Iterate ℝ n) (h : Mat ℝ n n) (radius : Extended ℝ) (w : σ)
    {S : Set (Fin n → ℝ)} (hcurrent : it.penaltyGrad.get ∈ S)
    (hnearby : ∀ g ∈ b.nearby it radius, g.get ∈ S) :
    ∃ g : Vector ℝ n, g.get ∈ convexHull ℝ S ∧
      (b.measure solve it h radius w).1.value = norm₂ (h.mulVec g) := by
  have halone : it.penaltyGrad.get ∈ convexHull ℝ S := subset_convexHull ℝ S hcurrent
  rcases b.value_measure_cases solve it h radius w with ⟨-, hvalue⟩ | ⟨weights, hanswer, hvalue⟩
  · exact ⟨it.penaltyGrad, halone, hvalue⟩
  · have hcolumns (j : Fin (it.penaltyGrad :: b.nearby it radius).toArray.size) :
        ((b.columns it radius).get j).get ∈ S := by
      have hmem : (b.columns it radius).get j ∈ it.penaltyGrad :: b.nearby it radius := List.getElem_mem _
      rcases List.mem_cons.1 hmem with heq | hother
      · rwa [heq]
      · exact hnearby _ hother
    have hcombined := Mat.get_mulVec_ofColumns_mem (hsolve rfl hanswer) hcolumns
    -- The shorter one of the combination and the current gradient is the measure.
    rcases min_choice (norm₂ (h.mulVec ((Mat.ofColumns (b.columns it radius)).mulVec weights)))
      (norm₂ (h.mulVec it.penaltyGrad)) with hmin | hmin
    · exact ⟨_, hcombined, hvalue.trans hmin⟩
    · exact ⟨it.penaltyGrad, halone, hvalue.trans hmin⟩

end GradientBundle

/-! ## The last stage -/

namespace RunContext

variable {run : RunContext σ ℝ n} {a : Stage σ ℝ n} {r : RunResult ℝ n × Session σ ℝ n}

/-- A run that has converged ends at the iterate it has measured. -/
theorem converged_of_iterateOnce (h : run.iterateOnce a = .inr r) (hreason : r.1.termination = .converged) :
    r.1.final = a.progress.current ∧
      a.progress.current.isFeasible run.options.stopping.ineqTol run.options.stopping.eqTol = true ∧
      run.options.stopping.optTol.AtLeast (run.stationarity a).value := by
  rcases iterateOnce_eq_inr h with ⟨-, hverdict, hr⟩ | ⟨hnot, -⟩
  · have htest : run.test a = some .converged := by
      rw [hreason, verdict] at hverdict
      cases htest : run.test a with
      | some reason =>
        rw [htest] at hverdict
        exact hverdict
      | none =>
        rw [htest] at hverdict
        dsimp only at hverdict
        split_ifs at hverdict
        cases hverdict
    refine ⟨by rw [hr]; rfl, ?_⟩
    rcases run.test_cases a with ⟨-, hpasses⟩ | ⟨-, hother, -⟩ | ⟨-, -, hother, -⟩ | ⟨-, -, -, hother⟩
    · exact StoppingOptions.passes_converged_iff.1 hpasses
    all_goals cases htest.symm.trans hother
  · rw [hreason] at hnot
    exact absurd (by decide) hnot

/-- The gradients of the bundle are those of the most recent iterates, weighed anew. -/
theorem exists_record_of_mem_nearby {o : Options ℝ} {p : Progress ℝ n}
    {history : Array (IterationRecord ℝ n)} (hp : p.Remembers o)
    (hhistory : p.iterates = history.toList.map (·.iterate)) {g : Vector ℝ n}
    (hg : g ∈ p.bundle.nearby p.current o.bundle.radius) :
    ∃ record ∈ history.toList.rtake (o.bundle.capacity n),
      o.bundle.radius.AtLeast (norm₂ (record.iterate.point - p.current.point)) ∧
        record.iterate.penaltyGradAt p.current.mu = g := by
  obtain ⟨s, hs, ⟨hradius, -⟩, rfl⟩ := GradientBundle.mem_nearby_iff.1 hg
  have hsamples : p.bundle.samples
      = (history.toList.rtake (o.bundle.capacity n)).map (·.iterate.sample) := by
    rw [hp.bundle.samples_eq, hhistory, List.map_map]
    simp only [List.rtake, List.length_map, List.map_drop]
    rfl
  rw [hsamples, List.mem_map] at hs
  obtain ⟨record, hrecord, rfl⟩ := hs
  exact ⟨record, hrecord, hradius, (record.iterate.penaltyGradAt_sample _).symm⟩

/-- The record of the stage at which a run ends is the last of the history. -/
theorem mem_rtake_of_iterateOnce (h : run.iterateOnce a = .inr r) {k : Nat} (hk : 0 < k) :
    r.1.history.back? = some (run.record a) ∧ run.record a ∈ r.1.history.toList.rtake k := by
  obtain ⟨-, hhistory, -⟩ := result_of_iterateOnce (r := r.1) (s := r.2) h
  rw [hhistory]
  refine ⟨Array.back?_push, ?_⟩
  obtain ⟨k, rfl⟩ := Nat.exists_eq_add_one_of_ne_zero hk.ne'
  show run.record a ∈ (a.progress.history.push (run.record a)).toList.rtake (k + 1)
  rw [Array.toList_push, List.rtake_concat_succ]
  exact List.mem_append_right _ (List.mem_singleton_self _)

end RunContext

/-! ## Whole runs -/

section Runs

variable {env : Environment σ ℝ n} {options : Options ℝ} {x₀ : Vector ℝ n} {world : σ}
    {r : RunResult ℝ n} {s : Session σ ℝ n}

/-- **The certificate of convergence.**  A converged run ends at a feasible iterate, the last of its
history.  Some convex combination of penalty gradients is short in the metric of the conditioned curvature
matrix of the last iteration: the gradients are taken at iterates among the most recent ones of the history,
as many as the bundle holds, which lie within the radius of the final iterate, and all of them are weighed
with the final penalty parameter. -/
theorem converged_certificate (hsolve : QpService.StaysInSimplex env.solve)
    (hrun : minimize env options x₀ world = (.ok r, s)) (hreason : r.termination = .converged) :
    r.final.isFeasible options.stopping.ineqTol options.stopping.eqTol = true ∧
    (∃ record ∈ r.history.toList.rtake (options.bundle.capacity n),
      r.history.back? = some record ∧ record.iterate = r.final) ∧
    ∃ (run : RunContext σ ℝ n) (first : Observation ℝ n) (as : List (Stage σ ℝ n)) (a : Stage σ ℝ n)
      (g : Vector ℝ n),
      run = ⟨env, options, first.shape⟩ ∧
      Path run.iterateOnce (.initial env options first world :: as) (r, s) ∧
      a ∈ Stage.initial env options first world :: as ∧ run.iterateOnce a = .inr (r, s) ∧
      g.get ∈ convexHull ℝ {v | ∃ record ∈ r.history.toList.rtake (options.bundle.capacity n),
        options.bundle.radius.AtLeast (norm₂ (record.iterate.point - r.final.point)) ∧
          (record.iterate.penaltyGradAt r.final.mu).get = v} ∧
      options.stopping.optTol.AtLeast (norm₂ ((run.conditioned a).mulVec g)) := by
  obtain ⟨hoptions, -, first, as, -, -, -, hpath⟩ := minimize_eq_ok hrun
  obtain ⟨a, ha, hlast, hremembers, -, hiterates⟩ :=
    RunContext.exists_last_remembers hpath (Progress.remembers_start options first)
  obtain ⟨hfinal, hfeasible, hmeasure⟩ := RunContext.converged_of_iterateOnce hlast hreason
  obtain ⟨hback, hmem⟩ := RunContext.mem_rtake_of_iterateOnce hlast (options.bundle.capacity_pos n)
  dsimp only at hfinal hback hmem hiterates
  have hzero : norm₂ (a.progress.current.point - a.progress.current.point) = 0 := by
    rw [norm₂_eq, get_sub, sub_self, dotProduct_zero, Real.sqrt_zero]
  obtain ⟨g, hg, hvalue⟩ := GradientBundle.exists_combination hsolve a.progress.bundle
    a.progress.current (RunContext.conditioned ⟨env, options, first.shape⟩ a) options.bundle.radius
    a.session.world (S := {v | ∃ record ∈ r.history.toList.rtake (options.bundle.capacity n),
      options.bundle.radius.AtLeast (norm₂ (record.iterate.point - a.progress.current.point)) ∧
        (record.iterate.penaltyGradAt a.progress.current.mu).get = v})
    ⟨_, hmem, hzero ▸ hoptions.radius_nonneg, rfl⟩
    (fun g hg ↦ by
      obtain ⟨record, hrecord, hradius, rfl⟩ := RunContext.exists_record_of_mem_nearby hremembers hiterates hg
      exact ⟨record, hrecord, hradius, rfl⟩)
  rw [hfinal]
  refine ⟨hfeasible, ⟨_, hmem, hback, rfl⟩, _, first, as, a, g, rfl, hpath, ha, hlast, hg, ?_⟩
  rw [← hvalue]
  exact hmeasure

end Runs

/-! ## The end of a run down the parabola -/

/-- After its first step, which leads to the minimiser, a run down the parabola has converged. -/
theorem exists_test_parabola :
    ∃ b, (parabolaRun parabola).iterateOnce (parabolaStart parabola ()) = .inl b ∧
      (parabolaRun parabola).test b = some .converged := by
  obtain ⟨b, hmove, hpoint, -⟩ :=
    exists_move_parabolaStart (fun _ _ ↦ rfl : parabola.IsParabola) ()
  have hgrad : b.progress.current.penaltyGrad.get = 0 := by
    rw [Iterate.penaltyGrad, hpoint, penaltyGradAt_parabola]
    ext i
    simp [get_eq]
  have hfeasible : b.progress.current.isFeasible (parabolaRun parabola).options.stopping.ineqTol
      (parabolaRun parabola).options.stopping.eqTol = true :=
    Observation.isFeasible_of_shape_eq_zero (congrArg Observation.shape hpoint)
      Options.isValid_standard.ineqTol_nonneg Options.isValid_standard.eqTol_nonneg
  exact ⟨b, hmove, RunContext.test_of_gradient_eq_zero Options.isValid_standard hgrad hfeasible⟩

/-- A run down the parabola converges after a step. -/
theorem exists_minimize_parabola_converged :
    ∃ r s, minimize parabola .standard (.replicate 1 1) () = (.ok r, s) ∧
      r.termination = .converged ∧ r.iterations = 1 := by
  obtain ⟨r, s, hrun⟩ := exists_minimize_parabola
  refine ⟨r, s, hrun, ?_⟩
  obtain ⟨-, -, first, as, hfirst, -, -, hpath⟩ := minimize_eq_ok hrun
  rw [toObservation?_parabola] at hfirst
  cases hfirst
  obtain ⟨b, hmove, htest⟩ := exists_test_parabola
  have hlast := RunContext.iterateOnce_of_test htest
  cases hpath with
  | last h => cases hmove.symm.trans h
  | cons h hpath =>
    cases hmove.symm.trans h
    cases hpath with
    | cons h => cases hlast.symm.trans h
    | last h =>
      have hr := Sum.inr.inj (h.symm.trans hlast)
      obtain ⟨move, μ, s', -, -, rfl⟩ := RunContext.exists_move hmove
      exact ⟨congrArg (·.1.termination) hr, congrArg (·.1.iterations) hr⟩

/-- The certificate of a run down the parabola. -/
theorem converged_certificate_parabola :
    QpService.StaysInSimplex parabola.solve ∧
    ∃ r s, minimize parabola .standard (.replicate 1 1) () = (.ok r, s) ∧
      r.termination = .converged ∧ r.iterations = 1 ∧
      r.final.isFeasible (.finite 0) (.finite 1e-6) = true ∧
      ∃ (a : Stage Unit ℝ 1) (g : Vector ℝ 1),
        g.get ∈ convexHull ℝ {v | ∃ record ∈ r.history.toList.rtake 2,
          norm₂ (record.iterate.point - r.final.point) ≤ 1e-4 ∧
            (record.iterate.penaltyGradAt r.final.mu).get = v} ∧
        norm₂ (((parabolaRun parabola).conditioned a).mulVec g) ≤ 1e-8 := by
  refine ⟨QpService.exact_staysInSimplex, ?_⟩
  obtain ⟨r, s, hrun, hreason, hiterations⟩ := exists_minimize_parabola_converged
  obtain ⟨hfeasible, -, run, first, as, a, g, rfl, -, -, -, hg, hshort⟩ :=
    converged_certificate QpService.exact_staysInSimplex hrun hreason
  exact ⟨r, s, hrun, hreason, hiterations, hfeasible, a, g, hg, hshort⟩

end ExactPenalty
