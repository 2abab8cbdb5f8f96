import Mathlib
import ExactPenalty.Proofs.Run.Definite
import ExactPenalty.Proofs.Run.PenaltyParameter
import ExactPenalty.Proofs.Run.Session
import ExactPenalty.Proofs.Search
import ExactPenalty.Proofs.Violation

/-!
# A run decreases

Inside an iteration the penalty parameter may fall several times, and every search compares the
penalty function at the parameter in force when it started.  The parameter of the accepted search is
the one after the step, so the step lowers the penalty function at that parameter
(`IterationContext.decreases_of_run_eq_ok`).

The penalty function itself is not comparable over a run, because its weight changes.  What decreases
is `Iterate.level`, the penalty function of the objective measured from a lower bound: there a smaller
weight is a decrease as well.
-/

set_option autoImplicit false

namespace ExactPenalty

open Linear Matrix ExactPenalty.Action

variable {σ : Type} {n : Nat}

/-- The step to the iterate was forced. -/
def IterationRecord.isForced {R : Type} {n : Nat} (record : IterationRecord R n) : Bool :=
  record.step.any (·.forced)

/-- The penalty function of the objective measured from `L`. -/
def Iterate.level {R : Type} [Scalar R] {n : Nat} (it : Iterate R n) (L : R) : R :=
  it.mu * (it.value - L) + it.tvL1

/-! ## One iteration -/

namespace IterationContext

variable {μ μ' : ℝ} {move : Move ℝ n} {s s' : Session σ ℝ n}

/-- **A step that is not forced lowers the penalty function** at the penalty parameter after it.  The
target has the shape of the problem. -/
theorem decreases_of_run_eq_ok (it : IterationContext σ ℝ n) (hoptions : it.options.IsValid)
    (hlimit : it.options.search.nondescentLimit = 0) (hforced : move.forced = false)
    (h : it.run μ s = ((.ok move, μ'), s')) :
    move.target.penaltyAt μ' < it.observation.penaltyAt μ' ∧ move.target.shape = it.shape := by
  obtain ⟨a, d, s₁, out, c, -, hd, hs, rfl, rfl⟩ :=
    exists_accepted (P := fun _ ↦ True) (fun _ _ _ _ ↦ trivial) trivial hforced h
  obtain ⟨-, s₂, s₃, hsearch, -⟩ := searchAlong_eq hs
  obtain ⟨x, s₄, observation, hlook, htrial, hlt⟩ :=
    lineSearch_eq_ok hoptions.initialStep_pos hoptions.decrease_pos
      (slope_neg_of_makeDirection_eq_ok hlimit hd) hsearch
  obtain ⟨-, -, hshape, -⟩ := RunContext.lookUp_eq_evaluated hlook
  have htarget : (acceptedMove c d out).target = observation :=
    congrArg Iterate.toObservation htrial
  rw [htarget]
  exact ⟨hlt, hshape⟩

end IterationContext

/-! ## Consecutive stages -/

namespace RunContext

variable {run : RunContext σ ℝ n} {a b : Stage σ ℝ n}

/-- What holds between the records of consecutive iterations. -/
structure Descends (a b : IterationRecord ℝ n) : Prop where
  mu_pos : 0 < b.iterate.mu
  mu_le : b.iterate.mu ≤ a.iterate.mu
  penalty_lt : b.isForced = false → b.iterate.penalty < a.iterate.penaltyAt b.iterate.mu

theorem descends_of_iterateOnce (hoptions : run.options.IsValid)
    (hlimit : run.options.search.nondescentLimit = 0) (hmu : 0 < a.progress.current.mu)
    (h : run.iterateOnce a = .inl b) : Descends (run.record a) (run.record b) := by
  obtain ⟨move, μ, s, -, hrun, rfl⟩ := exists_move h
  obtain ⟨hpos, hle⟩ := mu_le_of_run_eq hoptions hmu hrun
  refine ⟨hpos, hle, fun hforced ↦ ?_⟩
  exact ((run.climber a).decreases_of_run_eq_ok hoptions hlimit hforced hrun).1

/-- The level decreases from one record to the next, for a lower bound of the objective. -/
theorem Descends.level_lt {a b : IterationRecord ℝ n} (h : Descends a b)
    (hforced : b.isForced = false) {L : ℝ} (hL : L ≤ a.iterate.value) :
    b.iterate.level L < a.iterate.level L := by
  have hpenalty : b.iterate.mu * b.iterate.value + b.iterate.tvL1
      < b.iterate.mu * a.iterate.value + a.iterate.tvL1 := h.penalty_lt hforced
  calc b.iterate.mu * (b.iterate.value - L) + b.iterate.tvL1
      < b.iterate.mu * (a.iterate.value - L) + a.iterate.tvL1 := by
        rw [mul_sub, mul_sub]
        linarith
    _ ≤ a.iterate.mu * (a.iterate.value - L) + a.iterate.tvL1 :=
        add_le_add_left (mul_le_mul_of_nonneg_right h.mu_le (sub_nonneg.2 hL)) _

end RunContext

/-! ## Problems without constraints -/

namespace Observation

variable {o : Observation ℝ n}

theorem tvL1_of_shape_eq_zero (h : o.shape = (0, 0)) : o.tvL1 = 0 := by
  obtain ⟨hineq, heq⟩ := shape_eq_zero_iff.1 h
  rw [tvL1, hineq, heq]
  exact add_zero 0

/-- Without constraints every point is feasible. -/
theorem isFeasible_of_shape_eq_zero (h : o.shape = (0, 0)) {ineqTol eqTol : Extended ℝ}
    (hineqTol : ineqTol.Nonneg) (heqTol : eqTol.Nonneg) : o.isFeasible ineqTol eqTol = true := by
  obtain ⟨hineq, heq⟩ := shape_eq_zero_iff.1 h
  rw [isFeasible, tvIneq, tvEq, hineq, heq]
  exact decide_eq_true ⟨hineqTol, heqTol⟩

end Observation

theorem RunContext.Descends.value_lt {a b : IterationRecord ℝ n} (h : Descends a b)
    (hforced : b.isForced = false) (ha : a.iterate.shape = (0, 0)) (hb : b.iterate.shape = (0, 0)) :
    b.iterate.value < a.iterate.value := by
  have hpenalty : b.iterate.mu * b.iterate.value + b.iterate.tvL1
      < b.iterate.mu * a.iterate.value + a.iterate.tvL1 := h.penalty_lt hforced
  rw [Observation.tvL1_of_shape_eq_zero ha, Observation.tvL1_of_shape_eq_zero hb, add_zero,
    add_zero] at hpenalty
  exact lt_of_mul_lt_mul_left hpenalty h.mu_pos.le

/-- A feasible iterate of lower objective becomes the best one. -/
theorem Tracker.bestFeasible_consider {t : Tracker ℝ n} {o : StoppingOptions ℝ} {b it : Iterate ℝ n}
    (hb : t.bestFeasible = some b) (hfeasible : it.isFeasible o.ineqTol o.eqTol = true)
    (hlt : it.value < b.value) : (t.consider o it).bestFeasible = some it := by
  rw [consider]
  dsimp only
  rw [if_pos hfeasible, hb, lowerObjective]
  exact if_pos hlt

namespace RunContext

variable {run : RunContext σ ℝ n} {a b : Stage σ ℝ n}

/-- The current iterate has no constraints and is the best one so far. -/
structure CurrentIsBest (a : Stage σ ℝ n) : Prop where
  mu_pos : 0 < a.progress.current.mu
  shape : a.progress.current.shape = (0, 0)
  best : a.progress.tracker.bestFeasible = some a.progress.current

theorem CurrentIsBest.iterateOnce (hoptions : run.options.IsValid)
    (hlimit : run.options.search.nondescentLimit = 0) (hshape : run.shape = (0, 0))
    (hforced : (run.record b).isForced = false) (h : run.iterateOnce a = .inl b)
    (ha : CurrentIsBest a) : CurrentIsBest b := by
  have hdescends := descends_of_iterateOnce hoptions hlimit ha.mu_pos h
  obtain ⟨move, μ, s, -, hrun, rfl⟩ := exists_move h
  have hnext : move.target.shape = (0, 0) :=
    ((run.climber a).decreases_of_run_eq_ok hoptions hlimit hforced hrun).2.trans hshape
  refine ⟨hdescends.mu_pos, hnext, ?_⟩
  exact Tracker.bestFeasible_consider ha.best
    (Observation.isFeasible_of_shape_eq_zero hnext hoptions.ineqTol_nonneg hoptions.eqTol_nonneg)
    (hdescends.value_lt hforced ha.shape hnext)

theorem currentIsBest_initial {env : Environment σ ℝ n} {options : Options ℝ}
    {first : Observation ℝ n} {world : σ} (hoptions : options.IsValid)
    (hshape : first.shape = (0, 0)) : CurrentIsBest (.initial env options first world) := by
  refine ⟨hoptions.mu0_pos, hshape, ?_⟩
  have hfeasible : (first.weighed options.mu0).isFeasible options.stopping.ineqTol
      options.stopping.eqTol = true :=
    Observation.isFeasible_of_shape_eq_zero hshape hoptions.ineqTol_nonneg hoptions.eqTol_nonneg
  show (Tracker.start options.stopping (first.weighed options.mu0)).bestFeasible = _
  rw [Tracker.start, Tracker.consider]
  exact if_pos hfeasible

/-! ## Whole paths -/

section Paths

variable {as : List (Stage σ ℝ n)} {r : RunResult ℝ n × Session σ ℝ n}

theorem isChain_descends (hoptions : run.options.IsValid)
    (hlimit : run.options.search.nondescentLimit = 0) (hmu : 0 < a.progress.current.mu)
    (hpath : Path run.iterateOnce (a :: as) r) :
    ((a :: as).map run.record).IsChain Descends := by
  rw [List.isChain_map]
  have hchain := hpath.isChain_and (P := fun a ↦ 0 < a.progress.current.mu)
    (fun _ _ h hmu ↦ mu_pos_of_iterateOnce hoptions h hmu) hmu
  exact hchain.imp fun a b ⟨hmu, h⟩ ↦ descends_of_iterateOnce hoptions hlimit hmu h

/-- Without constraints and without forced steps every iterate is the best one so far. -/
theorem currentIsBest_of_path (hoptions : run.options.IsValid)
    (hlimit : run.options.search.nondescentLimit = 0) (hshape : run.shape = (0, 0))
    (hpath : Path run.iterateOnce (a :: as) r)
    (hforced : ∀ b ∈ as, (run.record b).isForced = false) (ha : CurrentIsBest a) :
    ∀ b ∈ a :: as, CurrentIsBest b :=
  hpath.forall_mem (fun _ b hb h hx ↦ hx.iterateOnce hoptions hlimit hshape (hforced b hb) h) ha

/-- A run that ends at the best iterate says so. -/
theorem bestFeasible_of_path (hpath : Path run.iterateOnce (a :: as) r)
    (hbest : ∀ b ∈ a :: as, CurrentIsBest b) :
    r.1.tracker.bestFeasible = r.1.history.back?.map (·.iterate) := by
  obtain ⟨b, hb, hlast⟩ := hpath.exists_last
  obtain ⟨μ, reason, s, rfl⟩ := exists_ending hlast
  show b.progress.tracker.bestFeasible
    = (b.progress.history.push (run.record b)).back?.map (·.iterate)
  rw [Array.back?_push, (hbest b hb).best]
  rfl

end Paths

end RunContext

/-! ## A run down the parabola -/

/-- The problem is the parabola, whatever the world is. -/
def Environment.IsParabola (env : Environment σ ℝ 1) : Prop :=
  ∀ x w, (env.evaluate x w).1 = (parabola.evaluate x ()).1

/-- A run down the parabola, and the stage at which it begins. -/
noncomputable def parabolaRun (env : Environment σ ℝ 1) : RunContext σ ℝ 1 := ⟨env, .standard, (0, 0)⟩

@[inherit_doc parabolaRun]
noncomputable def parabolaStart (env : Environment σ ℝ 1) (world : σ) : Stage σ ℝ 1 :=
  .initial env .standard (parabolaAt (.replicate 1 1)) world

section Parabola

variable {env : Environment σ ℝ 1}

theorem Environment.IsParabola.toObservation?_evaluate (henv : env.IsParabola) (x : Vector ℝ 1) (w : σ) :
    (env.evaluate x w).1.toObservation? x = some (parabolaAt x) := by
  rw [henv x w, toObservation?_parabola]

theorem Environment.IsParabola.lookUp (henv : env.IsParabola) (x : Vector ℝ 1) (s : Session σ ℝ 1) :
    ∃ s', (parabolaRun env).lookUp x s = (.evaluated (parabolaAt x), s') :=
  ⟨_, RunContext.lookUp_of_toObservation? rfl (henv.toObservation?_evaluate x s.world) rfl
    (isFinite_parabolaAt x)⟩

theorem penaltyGradAt_parabola (x : Vector ℝ 1) (μ : ℝ) :
    ((parabolaAt x).penaltyGradAt μ).get = μ • x.get := by
  rw [Observation.penaltyGradAt, get_add, get_scale]
  have hviolation : (parabolaAt x).violationGrad = Vector.replicate 1 0 := rfl
  rw [hviolation, get_replicate_zero, add_zero]
  rfl

theorem conditioned_parabolaStart (env : Environment σ ℝ 1) (world : σ) :
    (parabolaRun env).conditioned (parabolaStart env world) = .identity ℝ 1 := rfl

theorem stationarity_parabolaStart (env : Environment σ ℝ 1) (world : σ) :
    ((parabolaRun env).stationarity (parabolaStart env world)).value = 1 := by
  have hsamples : (parabolaStart env world).progress.bundle.samples
      = [(parabolaAt (.replicate 1 1)).sample] := by
    show (if _ then List.tail [] else []) ++ _ = _
    rw [List.tail_nil, ite_self]
    rfl
  have hdistance : ¬ 0 < norm₂ (Vector.replicate 1 (1 : ℝ) - .replicate 1 1) := by
    rw [norm₂_eq, get_sub, sub_self, dotProduct_zero, Real.sqrt_zero]
    exact lt_irrefl 0
  have hnearby : (parabolaStart env world).progress.bundle.nearby
      (parabolaStart env world).progress.current (parabolaRun env).options.bundle.radius = [] := by
    rw [GradientBundle.nearby, hsamples, List.filterMap_cons_none, List.filterMap_nil]
    exact if_neg fun h ↦ hdistance h.2
  rw [RunContext.stationarity, GradientBundle.measure, hnearby]
  show norm₂ (((parabolaRun env).conditioned (parabolaStart env world)).mulVec
    ((parabolaAt (.replicate 1 1)).penaltyGradAt 1)) = 1
  rw [conditioned_parabolaStart, norm₂_eq, Mat.get_mulVec, Mat.toMatrix_identity, one_mulVec,
    penaltyGradAt_parabola]
  simp [dotProduct, get_eq]

theorem test_parabolaStart (env : Environment σ ℝ 1) (world : σ) :
    (parabolaRun env).test (parabolaStart env world) = none := by
  have hopt : ¬ (parabolaRun env).options.stopping.optTol.AtLeast 1 :=
    show ¬ (1 : ℝ) ≤ 1e-8 by norm_num
  have htarget : ¬ (parabolaRun env).options.stopping.target.AtLeast
      (parabolaStart env world).progress.current.value := Extended.not_atLeast_negInf _
  rw [RunContext.test, stoppingTest, stationarity_parabolaStart]
  dsimp only
  rw [if_neg hopt, if_neg htarget]
  exact ite_self _

/-- The first search of a run down the parabola. -/
noncomputable def parabolaTask : SearchTask ℝ 1 where
  start := parabolaAt (.replicate 1 1)
  direction := .replicate 1 (-1)
  slope := -1
  mu := 1

/-- The first step that is tried leads to the minimiser. -/
theorem lineSearch_parabolaTask (henv : env.IsParabola) (s : Session σ ℝ 1) :
    ∃ s', lineSearch (parabolaRun env).lookUp parabolaTask Options.standard.search s
      = (.ok ⟨.ofObservation parabolaTask 1 (parabolaAt (.replicate 1 0)), 1⟩, s') := by
  have hpoint : parabolaTask.pointAt Options.standard.search.initialStep = .replicate 1 0 := by
    refine ext_get fun i ↦ ?_
    show (along (Vector.replicate 1 (1 : ℝ)) (.replicate 1 (-1)) 1).get i = _
    rw [get_along]
    simp [get_eq]
  obtain ⟨s', hlook⟩ := henv.lookUp (.replicate 1 0) s
  have hverdict : parabolaTask.verdict Options.standard.search
      (.ofObservation parabolaTask 1 (parabolaAt (.replicate 1 0))) = .acceptable := by
    rw [SearchTask.verdict_eq_acceptable_iff]
    constructor
    · show (1 : ℝ) * (parabolaAt (.replicate 1 0)).value + (parabolaAt (.replicate 1 0)).tvL1
        ≤ 1 * (parabolaAt (.replicate 1 1)).value + (parabolaAt (.replicate 1 1)).tvL1
          + 1e-4 * 1 * -1
      rw [Observation.tvL1_of_shape_eq_zero rfl, Observation.tvL1_of_shape_eq_zero rfl]
      norm_num [parabolaAt, dot_eq, dotProduct]
    · show (0.5 : ℝ) * -1 < dot ((parabolaAt (.replicate 1 0)).penaltyGradAt 1) (.replicate 1 (-1))
      rw [dot_eq, penaltyGradAt_parabola]
      norm_num [dotProduct, get_eq]
  have hcap : BelowCap 0 (parabolaTask.evaluationCap Options.standard.search) := by
    rw [SearchTask.evaluationCap, if_neg (not_le.2 (by norm_num [parabolaTask]))]
    trivial
  rw [← hpoint] at hlook
  exact ⟨_, weakWolfe_of_acceptable hcap (hlook.trans (by rw [hpoint])) hverdict⟩

/-- A run down the parabola makes a step, to the minimiser. -/
theorem exists_move_parabolaStart (henv : env.IsParabola) (world : σ) :
    ∃ b, (parabolaRun env).iterateOnce (parabolaStart env world) = .inl b ∧
      b.progress.current.toObservation = parabolaAt (.replicate 1 0) ∧
      b.progress.step.map (·.evaluations) = some 1 := by
  let it := (parabolaRun env).climber (parabolaStart env world)
  let s := (parabolaRun env).entered (parabolaStart env world)
  let s₁ := (it.makeDirection .quasiNewton 1 s).2
  have hgrad : (it.observation.penaltyGradAt 1).get = (Vector.replicate 1 (1 : ℝ)).get :=
    (penaltyGradAt_parabola _ 1).trans (one_smul ℝ _)
  have hne : (it.observation.penaltyGradAt 1).get ≠ 0 := by
    rw [hgrad]
    exact fun h ↦ one_ne_zero (congrFun h 0)
  have hcurvature : it.curvature.toMatrix.PosDef := Mat.posDef_identity
  obtain ⟨d, hd, hmu, hvector, hslope, -⟩ := DirectionContext.result_quasiNewton
    it.toDirectionContext it.env.solve it.options s.generator s.world hcurvature hne
  have hd₁ : d.vector = .replicate 1 (-1) := by
    refine ext_get fun i ↦ ?_
    rw [hvector, get_neg, Mat.get_mulVec, hgrad]
    show -((Mat.identity ℝ 1).toMatrix *ᵥ _) i = _
    rw [Mat.toMatrix_identity, one_mulVec]
    simp [get_eq]
  have htask : it.task (.start 1) d = parabolaTask := by
    have hslope₁ : d.slope = -1 := by
      rw [hslope, dot_eq, hgrad, hd₁]
      simp [dotProduct, get_eq]
    rw [IterationContext.task, hd₁, hslope₁]
    rfl
  obtain ⟨s₂, hsearch⟩ := lineSearch_parabolaTask henv s₁
  have hmade : it.makeDirection .quasiNewton 1 s = (.ok d, s₁) := Prod.ext hd rfl
  have hsearched := it.searchAlong_of_not_lt (.start 1) hmu.not_lt (htask ▸ hsearch)
  have htried := it.tryOnce_of_ok it.reattempts.limit (.start 1) hmade hsearched
  have hlevel : (Ladder.start it.options.ladder it.engaged).level = .quasiNewton := rfl
  rw [← hlevel] at htried
  have hclimb := IterationContext.climbFrom_of_tryOnce htried
  have hrun := IterationContext.run_of_moved hclimb
  exact ⟨_, RunContext.iterateOnce_of_run (test_parabolaStart env world) (Nat.succ_ne_zero 999) rfl hrun,
    rfl, rfl⟩

/-- A run down the parabola returns, and records its first step. -/
theorem exists_minimize_of_isParabola (henv : env.IsParabola) (world : σ) :
    ∃ r s b as, minimize env .standard (.replicate 1 1) world = (.ok r, s) ∧
      (parabolaRun env).iterateOnce (parabolaStart env world) = .inl b ∧
      r.history.toList = (parabolaStart env world :: b :: as).map (parabolaRun env).record := by
  obtain ⟨r, s, hrun⟩ : ∃ r s, minimize env .standard (.replicate 1 1) world = (.ok r, s) :=
    exists_minimize_eq_ok Options.isValid_standard one_ne_zero (henv.toObservation?_evaluate _ _)
      (isFinite_parabolaAt _) (Linear.allFinite_real _)
  obtain ⟨-, -, first, as, hfirst, -, -, hpath⟩ := minimize_eq_ok hrun
  rw [henv.toObservation?_evaluate] at hfirst
  cases hfirst
  obtain ⟨b, hb, -⟩ := exists_move_parabolaStart henv world
  have hhistory := RunContext.history_of_path hpath
  cases hpath with
  | last h => cases hb.symm.trans h
  | cons h =>
    cases hb.symm.trans h
    exact ⟨r, s, b, _, hrun, hb, hhistory⟩

end Parabola

/-- A run down the parabola records more than its starting point. -/
theorem exists_minimize_parabola_two_le :
    ∃ r s, minimize parabola .standard (.replicate 1 1) () = (.ok r, s) ∧ 2 ≤ r.history.toList.length := by
  obtain ⟨r, s, b, as, hrun, -, hhistory⟩ :=
    exists_minimize_of_isParabola (fun _ _ ↦ rfl : parabola.IsParabola) ()
  refine ⟨r, s, hrun, ?_⟩
  rw [hhistory, List.length_map]
  exact Nat.le_add_left 2 as.length

/-! ## Whole runs -/

section Runs

/-- What decreases from each element to the next decreases along a list. -/
theorem pairwise_lt_of_isChain {α : Type} {f : α → ℝ} {l : List α}
    (h : l.IsChain fun a b ↦ f b < f a) : l.Pairwise fun a b ↦ f b < f a := by
  have hmap : (l.map f).IsChain (· > ·) := (List.isChain_map f).2 h
  exact List.pairwise_map.1 hmap.pairwise

variable {env : Environment σ ℝ n} {options : Options ℝ} {x₀ : Vector ℝ n} {world : σ}
    {r : RunResult ℝ n} {s : Session σ ℝ n}

/-- Without the option no step of a run is forced. -/
theorem isForced_eq_false (hforce : options.forceMovement = false)
    (hrun : minimize env options x₀ world = (.ok r, s)) :
    ∀ record ∈ r.history.toList, record.isForced = false := by
  obtain ⟨-, -, first, as, -, -, -, hpath⟩ := minimize_eq_ok hrun
  rw [RunContext.history_of_path hpath]
  intro record hmem
  obtain ⟨a, ha, rfl⟩ := List.mem_map.1 hmem
  refine hpath.forall_mem (P := fun a : Stage σ ℝ n ↦ a.progress.step.any (·.forced) = false)
    (fun a b _ h _ ↦ ?_) rfl a ha
  obtain ⟨move, μ, s, -, hrun, rfl⟩ := RunContext.exists_move h
  show move.forced = false
  by_contra hforced
  have hoption := IterationContext.forceMovement_of_forced (Bool.not_eq_false _ ▸ hforced) hrun
  exact absurd (hforce.symm.trans hoption) Bool.false_ne_true

/-- **A run decreases.**  From one record to the next, a step that is not forced lowers the penalty
function at the penalty parameter after the step.  A run without forced steps therefore lowers the
level over any lower bound of its objective values, and without constraints it lowers the objective
and ends at the best iterate. -/
theorem history_decreases (hlimit : options.search.nondescentLimit = 0)
    (hrun : minimize env options x₀ world = (.ok r, s)) :
    (r.history.toList.IsChain fun a b ↦
      b.isForced = false → b.iterate.penalty < a.iterate.penaltyAt b.iterate.mu) ∧
    ((∀ record ∈ r.history.toList, record.isForced = false) →
      (∀ L, (∀ record ∈ r.history.toList, L ≤ record.iterate.value) →
        r.history.toList.Pairwise fun a b ↦ b.iterate.level L < a.iterate.level L) ∧
      ((env.evaluate x₀ world).1.ineq = [] → (env.evaluate x₀ world).1.eq = [] →
        (r.history.toList.Pairwise fun a b ↦ b.iterate.value < a.iterate.value) ∧
        r.tracker.bestFeasible = r.history.back?.map (·.iterate))) := by
  obtain ⟨hoptions, -, first, as, hfirst, -, -, hpath⟩ := minimize_eq_ok hrun
  have hhistory : r.history.toList = (Stage.initial env options first world :: as).map
    (RunContext.record ⟨env, options, first.shape⟩) := RunContext.history_of_path hpath
  have hdescends : r.history.toList.IsChain RunContext.Descends :=
    hhistory ▸ RunContext.isChain_descends hoptions hlimit hoptions.mu0_pos hpath
  refine ⟨hdescends.imp fun a b h ↦ h.penalty_lt, fun hforced ↦ ⟨fun L hL ↦ ?_, fun hineq heq ↦ ?_⟩⟩
  · exact pairwise_lt_of_isChain <| hdescends.imp_of_mem_imp fun a b ha hb h ↦
      h.level_lt (hforced b hb) (hL a ha)
  have hshape : first.shape = (0, 0) := Evaluation.shape_of_no_values hfirst hineq heq
  rw [hhistory] at hforced
  have hbest : ∀ a ∈ Stage.initial env options first world :: as, RunContext.CurrentIsBest a :=
    RunContext.currentIsBest_of_path hoptions hlimit hshape hpath
      (fun b hb ↦ hforced _ (List.mem_map_of_mem (List.mem_cons_of_mem _ hb)))
      (RunContext.currentIsBest_initial hoptions hshape)
  refine ⟨?_, RunContext.bestFeasible_of_path hpath hbest⟩
  have hshapes : ∀ record ∈ r.history.toList, record.iterate.shape = (0, 0) := by
    rw [hhistory]
    intro record hmem
    obtain ⟨a, ha, rfl⟩ := List.mem_map.1 hmem
    exact (hbest a ha).shape
  exact pairwise_lt_of_isChain <| hdescends.imp_of_mem_imp fun a b ha hb h ↦
    h.value_lt (hforced b (hhistory ▸ hb)) (hshapes a ha) (hshapes b hb)

end Runs

/-- A run down the parabola makes a step, and decreases. -/
theorem history_decreases_parabola :
    (Options.standard : Options ℝ).search.nondescentLimit = 0 ∧
    ∃ r s, minimize parabola .standard (.replicate 1 1) () = (.ok r, s) ∧ 2 ≤ r.history.toList.length ∧
      (r.history.toList.Pairwise fun a b ↦ b.iterate.value < a.iterate.value) ∧
      r.tracker.bestFeasible = r.history.back?.map (·.iterate) := by
  obtain ⟨r, s, hrun, hlength⟩ := exists_minimize_parabola_two_le
  obtain ⟨-, hunforced⟩ := history_decreases rfl hrun
  obtain ⟨-, hvalues⟩ := hunforced (isForced_eq_false rfl hrun)
  obtain ⟨hvalue, hbest⟩ := hvalues rfl rfl
  exact ⟨rfl, r, s, hrun, hlength, hvalue, hbest⟩

end ExactPenalty
