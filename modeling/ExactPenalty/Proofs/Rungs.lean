import Mathlib
import ExactPenalty.Proofs.Steering.Descent

/-!
# What the rungs can do

Below the random rung every direction is made with a positive definite matrix: steering takes the
conditioned one or the identity, and the plain rungs multiply the gradient of the penalty function by
the curvature matrix or by the identity.  So none of them ever makes a direction that ascends
(`DirectionContext.result_cases`), and a plain rung has no direction to make only where the gradient
vanishes.
-/

set_option autoImplicit false

namespace ExactPenalty

open Linear Matrix

namespace DirectionContext

variable {σ : Type} {n : Nat} {ctx : DirectionContext ℝ n} {level : Level} {p : Proposal ℝ n}

/-- The rung steers. -/
def Steers (ctx : DirectionContext ℝ n) (level : Level) : Prop :=
  level.usesSteering = true ∧ ctx.engaged = true

/-- A proposal that descends unless it is zero is a direction unless it is zero. -/
theorem judge_of_descends (ctx : DirectionContext ℝ n) (lenient : Bool) (hlevel : level ≠ .random)
    (hp : p.vector.get ≠ 0 → dot (ctx.observation.penaltyGradAt p.mu) p.vector < 0) :
    (p.vector.get = 0 ∧ ctx.judge lenient level p = .error .degenerate) ∨
      ∃ d, ctx.judge lenient level p = .ok d ∧ d.vector.get ≠ 0 ∧ d.slope < 0 := by
  by_cases hzero : p.vector.get = 0
  · rcases ctx.judge_cases lenient level p with hdegenerate | ⟨d, hd, -⟩
    · exact .inl hdegenerate
    · exact absurd ((congrArg Vector.get (hd.vector_eq_of_ne hlevel)).trans hzero) hd.ne_zero
  · obtain ⟨d, hj, hd⟩ := ctx.judge_of_slope_neg lenient hlevel (hp hzero)
    refine .inr ⟨d, hj, hd.ne_zero, ?_⟩
    rw [hd.slope_eq, hd.mu_eq, hd.vector_eq_of_ne hlevel]
    exact hp hzero

/-- A rung that neither steers nor draws proposes `−M ∇φ` for a positive definite matrix `M`. -/
theorem propose_of_not_steers (solve : QpService σ ℝ) (options : Options ℝ) (μ : ℝ) (g : Generator)
    (s : σ) (hcurvature : ctx.curvature.toMatrix.PosDef)
    (hlevel : level ≠ .random) (hsteers : ¬ ctx.Steers level) :
    ∃ p M, (ctx.propose solve options.steering level μ g s).1.1 = .ok p ∧ p.mu = μ ∧
      M.PosDef ∧ p.vector.get = -(M *ᵥ (ctx.observation.penaltyGradAt μ).get) := by
  let gradient := ctx.observation.penaltyGradAt μ
  have hquasi : (-(ctx.curvature.mulVec gradient)).get
      = -(ctx.curvature.toMatrix *ᵥ gradient.get) := by rw [get_neg, Mat.get_mulVec]
  have hsteepest : (-gradient).get = -((1 : Matrix (Fin n) (Fin n) ℝ) *ᵥ gradient.get) := by
    rw [get_neg, one_mulVec]
  rw [propose.eq_def]
  cases level with
  | steering =>
    have hengaged : ctx.engaged = false := Bool.eq_false_iff.2 fun h ↦ hsteers ⟨rfl, h⟩
    rw [hengaged]
    exact ⟨_, _, rfl, rfl, hcurvature, hquasi⟩
  | steeringIdentity =>
    have hengaged : ctx.engaged = false := Bool.eq_false_iff.2 fun h ↦ hsteers ⟨rfl, h⟩
    rw [hengaged]
    exact ⟨_, _, rfl, rfl, .one, hsteepest⟩
  | quasiNewton => exact ⟨_, _, rfl, rfl, hcurvature, hquasi⟩
  | steepestDescent => exact ⟨_, _, rfl, rfl, .one, hsteepest⟩
  | random => exact absurd rfl hlevel

/-- **Below the random rung no direction ascends.**  With positive definite matrices and a service
whose answers are minimisers, an attempt fails for its quadratic program or yields a direction that
descends; or it proposes zero, on a plain rung only where the gradient vanishes. -/
theorem result_cases (solve : QpService σ ℝ) (options : Options ℝ) (μ : ℝ) (g : Generator) (s : σ)
    (hsolve : solve.ExactOnBoxes) (hcurvature : ctx.curvature.toMatrix.PosDef)
    (hconditioned : ctx.conditioned.toMatrix.PosDef) (hlevel : level ≠ .random) :
    (∃ e, (ctx.attempt solve options level μ g s).1.1.result = .error (.qp e) ∧ ctx.Steers level) ∨
      ((ctx.attempt solve options level μ g s).1.1.result = .error .degenerate ∧
        (¬ ctx.Steers level → (ctx.observation.penaltyGradAt μ).get = 0)) ∨
      ∃ d, (ctx.attempt solve options level μ g s).1.1.result = .ok d ∧ d.vector.get ≠ 0 ∧
        d.slope < 0 := by
  rw [result_attempt]
  by_cases hsteers : ctx.Steers level
  · rw [propose_of_engaged hsteers.1 hsteers.2]
    have hmatrix := posSemidef_steeringMatrix hconditioned.posSemidef level
    rcases hsteer : (steer solve options.steering ctx.observation (ctx.steeringMatrix level) μ).run s
      with ⟨e | out, s'⟩
    · exact .inl ⟨e, rfl, hsteers⟩
    · rcases ctx.judge_of_descends options.lenient hlevel
        (p := { vector := out.direction, mu := out.mu, steered := some out })
        (slope_neg_of_steer_eq_ok hsolve hmatrix hsteer) with ⟨-, hj⟩ | ⟨d, hj, hd⟩
      · exact .inr (.inl ⟨hj, fun h ↦ absurd hsteers h⟩)
      · exact .inr (.inr ⟨d, hj, hd⟩)
  · obtain ⟨p, M, hp, hmu, hM, hvector⟩ :=
      propose_of_not_steers solve options μ g s hcurvature hlevel hsteers
    rw [hp]
    have hdescends : p.vector.get ≠ 0 →
        dot (ctx.observation.penaltyGradAt p.mu) p.vector < 0 := by
      intro hne
      have hgrad : (ctx.observation.penaltyGradAt μ).get ≠ 0 := by
        intro hzero
        rw [hvector, hzero, mulVec_zero, neg_zero] at hne
        exact hne rfl
      rw [dot_eq, hmu, hvector, dotProduct_neg]
      exact neg_neg_of_pos (hM.dotProduct_mulVec_pos hgrad)
    rcases ctx.judge_of_descends options.lenient hlevel hdescends with ⟨hzero, hj⟩ | ⟨d, hj, hd⟩
    · refine .inr (.inl ⟨hj, fun _ ↦ ?_⟩)
      rw [hvector, neg_eq_zero] at hzero
      exact mulVec_injective_of_isUnit hM.isUnit (hzero.trans (mulVec_zero M).symm)
    · exact .inr (.inr ⟨d, hj, hd⟩)

end DirectionContext

end ExactPenalty
