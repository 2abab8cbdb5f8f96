import Mathlib
import ExactPenalty.Proofs.Direction
import ExactPenalty.Proofs.Violation.Linearized

/-!
# Steered directions descend

The slope of the penalty function uses one particular vector of multipliers, that of the constraint
values at hand, and the steered direction uses another, a minimiser of the dual program.  The two
meet in the linearised violation after the direction.  The slope is at most the change of the
linearised penalty function (`dot_penaltyGradAt_le`); the minimiser attains the linearised violation,
and gives no more than the violation before the direction, so the change is at most the slope of the
Lagrange function (`slope_directionOf_le`).

So a steered direction that is not zero descends, whatever the active set of the dual program looks
like, and a steering rung never refuses its direction for the slope
(`steered_directions_descend`).
-/

set_option autoImplicit false

namespace ExactPenalty

open Linear Matrix

variable {σ : Type} {n : Nat}

namespace Observation

variable {o : Observation ℝ n} {h : Mat ℝ n n} {μ : ℝ} {y : Vector ℝ o.constraints.length}

/-- **The slope along a steered direction** is at most the negative curvature `−wᵀ H w` of the
gradient `w` of the Lagrange function. -/
theorem slope_directionOf_le (hy : ((o.steeringModel h).program μ).IsMinimizer y)
    (hsymm : h.toMatrix.IsSymm) :
    dot (o.penaltyGradAt μ) ((o.steeringModel h).directionOf μ y)
      ≤ -dot (o.lagrangianGrad μ y) (h.mulVec (o.lagrangianGrad μ y)) := by
  let d := (o.steeringModel h).directionOf μ y
  have hattained : o.linearizedViolation d true = y.get ⬝ᵥ o.linearizedVec d.get :=
    linearizedViolation_eq_of_isMinimizer hy hsymm
  have hvalues : y.get ⬝ᵥ o.valueVec ≤ o.tvL1 :=
    dotProduct_valueVec_le_tvL1 (isMultiplier_of_isMinimizer hy)
  have hw : -dot (o.lagrangianGrad μ y) (h.mulVec (o.lagrangianGrad μ y))
      = (o.lagrangianGrad μ y).get ⬝ᵥ d.get := by
    rw [dot_eq, ← dotProduct_neg, ← get_neg, ← directionOf_eq]
  calc dot (o.penaltyGradAt μ) d
      ≤ μ * dot o.grad d + o.linearizedViolation d true - o.tvL1 := o.dot_penaltyGradAt_le μ d
    _ ≤ μ * dot o.grad d + y.get ⬝ᵥ o.jacobian.toMatrixᵀ *ᵥ d.get := by
        rw [hattained, linearizedVec, dotProduct_add]
        linarith
    _ = (o.lagrangianGrad μ y).get ⬝ᵥ d.get := by
        rw [get_lagrangianGrad, add_dotProduct, smul_dotProduct, jacobian_mulVec_dotProduct,
          smul_eq_mul, dot_eq]
    _ = _ := hw.symm

/-- A steered direction that is not zero descends. -/
theorem slope_directionOf_neg (hy : ((o.steeringModel h).program μ).IsMinimizer y)
    (hh : h.toMatrix.PosSemidef) (hd : ((o.steeringModel h).directionOf μ y).get ≠ 0) :
    dot (o.penaltyGradAt μ) ((o.steeringModel h).directionOf μ y) < 0 := by
  have hsymm : h.toMatrix.IsSymm := Mat.isSymm_of_posSemidef hh
  let w := (o.lagrangianGrad μ y).get
  have hnonneg : 0 ≤ w ⬝ᵥ h.toMatrix *ᵥ w := hh.dotProduct_mulVec_nonneg w
  have hne : w ⬝ᵥ h.toMatrix *ᵥ w ≠ 0 := by
    intro hzero
    have hker : h.toMatrix *ᵥ w = 0 := (hh.dotProduct_mulVec_zero_iff w).1 hzero
    rw [directionOf_eq, get_neg, Mat.get_mulVec] at hd
    exact hd (neg_eq_zero.2 hker)
  have hle := slope_directionOf_le hy hsymm
  rw [dot_eq (o.lagrangianGrad μ y), Mat.get_mulVec] at hle
  exact hle.trans_lt (neg_lt_zero.2 (lt_of_le_of_ne hnonneg hne.symm))

end Observation

section Steer

variable {solve : QpService σ ℝ} {options : Options ℝ} {o : Observation ℝ n} {h : Mat ℝ n n}
  {μ : ℝ}

/-- What steering returns descends, unless it is zero. -/
theorem slope_neg_of_steer_eq_ok (hsolve : solve.ExactOnBoxes) (hh : h.toMatrix.PosSemidef)
    {s s' : σ} {out : SteeringOutcome ℝ n}
    (hout : (steer solve options.steering o h μ).run s = (.ok out, s'))
    (hd : out.direction.get ≠ 0) : dot (o.penaltyGradAt out.mu) out.direction < 0 := by
  obtain ⟨-, -, s₁, s₂, hdir⟩ := steer_eq_ok hout
  obtain ⟨y, hy, hdy⟩ := exists_isMinimizer_of_direction hsolve hdir
  rw [hdy] at hd ⊢
  exact Observation.slope_directionOf_neg hy hh hd

theorem DirectionContext.posSemidef_steeringMatrix {ctx : DirectionContext ℝ n}
    (hctx : ctx.conditioned.toMatrix.PosSemidef) (level : Level) :
    (ctx.steeringMatrix level).toMatrix.PosSemidef := by
  rw [steeringMatrix]
  split_ifs
  · exact hctx
  · exact Mat.posDef_identity.posSemidef

/-- A steering rung never refuses its direction for the slope, where steering is engaged. -/
theorem DirectionContext.result_ne_nonDescent (hsolve : solve.ExactOnBoxes)
    (ctx : DirectionContext ℝ n) (hctx : ctx.conditioned.toMatrix.PosSemidef)
    (hengaged : ctx.engaged = true) {level : Level} (hlevel : level.usesSteering = true)
    (g : Generator) (s : σ) (d : Direction ℝ n) :
    (ctx.attempt solve options level μ g s).1.1.result ≠ .error (.nonDescent d) := by
  have hmatrix := posSemidef_steeringMatrix hctx level
  rw [result_attempt, propose_of_engaged hlevel hengaged]
  intro hresult
  cases hs : ((steer solve options.steering ctx.observation (ctx.steeringMatrix level) μ).run s).1 with
  | error e => rw [hs] at hresult; cases hresult
  | ok out =>
    rw [hs] at hresult
    obtain ⟨hcarries, hslope⟩ := carries_of_judge_eq_nonDescent hresult
    have hrandom : level ≠ .random := by
      rintro rfl
      cases hlevel
    have hvector : d.vector = out.direction := hcarries.vector_eq_of_ne hrandom
    have hneg := slope_neg_of_steer_eq_ok hsolve hmatrix (Prod.ext hs rfl)
      (hvector ▸ hcarries.ne_zero)
    rw [hcarries.slope_eq, hcarries.mu_eq, hvector] at hslope
    exact absurd hneg (not_lt.2 hslope)

end Steer

/-! ## Descent -/

/-- **Steered directions descend.**  For a positive semidefinite matrix and a service whose answers
are minimisers, at every observation:

* each direction of the model is `−H w`, where `w` is the gradient of the Lagrange function at some
  minimiser of the dual program, and its slope is at most `−wᵀ H w`;
* what `steer` returns is such a direction for the weight returned with it, which is the given one
  shrunk some number of times within the limit, and it descends unless it is zero;
* with steering engaged no steering rung refuses its direction because it does not descend;
* `steer` does return something, if the service answers. -/
theorem steered_directions_descend {solve : QpService σ ℝ} (hsolve : solve.ExactOnBoxes)
    (options : Options ℝ) (o : Observation ℝ n) {h : Mat ℝ n n} (hh : h.toMatrix.PosSemidef) :
    (∀ (μ : ℝ) (s s' : σ) (d : Vector ℝ n),
      ((o.steeringModel h).direction solve μ).run s = (.ok d, s') →
        ∃ y, ((o.steeringModel h).program μ).IsMinimizer y ∧
          d = -h.mulVec (o.lagrangianGrad μ y) ∧
          dot (o.penaltyGradAt μ) d
            ≤ -dot (o.lagrangianGrad μ y) (h.mulVec (o.lagrangianGrad μ y))) ∧
    (∀ (μ : ℝ) (s s' : σ) (out : SteeringOutcome ℝ n),
      (steer solve options.steering o h μ).run s = (.ok out, s') →
        (out.shrinks ≤ options.steering.maxShrinks ∧
          out.mu = μ * options.steering.shrinkFactor ^ out.shrinks ∧
          ∃ s₁ s₂, ((o.steeringModel h).direction solve out.mu).run s₁ = (.ok out.direction, s₂)) ∧
        (out.direction.get ≠ 0 → dot (o.penaltyGradAt out.mu) out.direction < 0)) ∧
    (∀ (curvature : Mat ℝ n n) (level : Level) (μ : ℝ) (g : Generator) (s : σ) (d : Direction ℝ n),
      level.usesSteering = true →
        (DirectionContext.attempt
          { observation := o, curvature, conditioned := h, engaged := true }
          solve options level μ g s).1.1.result ≠ .error (.nonDescent d)) ∧
    (solve.AnswersBoxes → ∀ (μ : ℝ) (s : σ),
      ∃ out s', (steer solve options.steering o h μ).run s = (.ok out, s')) := by
  have hsymm : h.toMatrix.IsSymm := Mat.isSymm_of_posSemidef hh
  refine ⟨fun μ s s' d hd ↦ ?_, fun μ s s' out hout ↦ ⟨steer_eq_ok hout, ?_⟩, ?_,
    fun hanswers μ s ↦ exists_steer hanswers s⟩
  · obtain ⟨y, hy, rfl⟩ := exists_isMinimizer_of_direction hsolve hd
    exact ⟨y, hy, o.directionOf_eq h μ y, Observation.slope_directionOf_le hy hsymm⟩
  · exact slope_neg_of_steer_eq_ok hsolve hh hout
  · intro curvature level μ g s d hlevel
    exact DirectionContext.result_ne_nonDescent hsolve ⟨o, curvature, h, true⟩ hh rfl hlevel g s d

/-- An inequality just at its bound and a violated equality, on the line. -/
noncomputable def kinkedObservation : Observation ℝ 1 where
  point := #v[0]
  value := 0
  grad := #v[1]
  ineq := [⟨0, #v[-1]⟩]
  eq := [⟨1, #v[-1]⟩]

/-- The service of exact minimisers steers at a kink. -/
theorem steered_directions_descend_at_kink :
    QpService.exact.ExactOnBoxes ∧ (Mat.identity ℝ 1).toMatrix.PosSemidef ∧
      ∃ out s', (steer QpService.exact Options.standard.steering kinkedObservation
          (.identity ℝ 1) (1 / 2)).run () = (.ok out, s') ∧
        (out.direction.get ≠ 0 →
          dot (kinkedObservation.penaltyGradAt out.mu) out.direction < 0) := by
  have hh : (Mat.identity ℝ 1).toMatrix.PosSemidef := Mat.posDef_identity.posSemidef
  obtain ⟨-, hpair, -, hanswers⟩ :=
    steered_directions_descend QpService.exact_exactOnBoxes .standard kinkedObservation hh
  obtain ⟨out, s', hout⟩ := hanswers QpService.exact_answersBoxes (1 / 2) ()
  exact ⟨QpService.exact_exactOnBoxes, hh, out, s', hout, (hpair _ _ _ _ hout).2⟩

end ExactPenalty
