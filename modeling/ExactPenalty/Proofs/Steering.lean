import Mathlib
import ExactPenalty.Proofs.Attempts
import ExactPenalty.Proofs.Quadratic
import ExactPenalty.Proofs.Violation

/-!
# The steering model in exact arithmetic

The dual program of the steering model, its minimisers, and the directions that come of them.  Every
statement about steering is read off one equation: the gradient of the dual program at `y` is the
negative of the linearised constraint values after the direction that belongs to `y`
(`gradient_program`).  So a minimiser of the dual program is a vector of multipliers at which the
linearised violation is attained (`linearizedViolation_eq_of_isMinimizer`).

## What is here

* `Observation.lagrangianGrad` — `μ ∇f + J y`, and `directionOf_eq` — the direction is `−H` times
  that.
* `contains_multipliers` — the box of the dual program holds the multipliers of `Proofs.Violation`.
* `gradient_program`, `linearizedViolation_eq_of_isMinimizer` — the two facts above.
* `run_direction`, `steer_eq_ok` — what the actions of the model return.
-/

set_option autoImplicit false

namespace ExactPenalty

open Linear Matrix ExactPenalty.Action

variable {σ : Type} {n : Nat}

/-! ## The model in matrices -/

namespace Observation

variable (o : Observation ℝ n) (h : Mat ℝ n n)

/-- The gradient of the Lagrange function: the weighted gradient of the objective and the
combination of the constraint gradients with the multipliers `y`. -/
noncomputable def lagrangianGrad (μ : ℝ) (y : Vector ℝ o.constraints.length) : Vector ℝ n :=
  scale o.grad μ + o.jacobian.mulVec y

theorem get_lagrangianGrad (μ : ℝ) (y : Vector ℝ o.constraints.length) :
    (o.lagrangianGrad μ y).get = μ • o.grad.get + o.jacobian.toMatrix *ᵥ y.get := by
  simp [lagrangianGrad]

theorem get_values : (o.steeringModel h).values.get = o.valueVec := by
  funext k
  simp [steeringModel, valueVec, constraint, get_eq]

theorem toMatrix_curvedGrads :
    (o.steeringModel h).curvedGrads.toMatrix = h.toMatrix * o.jacobian.toMatrix :=
  Mat.toMatrix_mul h o.jacobian

theorem get_curvedGrad : (o.steeringModel h).curvedGrad.get = h.toMatrix *ᵥ o.grad.get :=
  Mat.get_mulVec h o.grad

theorem get_column_jacobian (k : Fin o.constraints.length) (i : Fin n) :
    (o.jacobian.column k).get i = o.jacobian.toMatrix i k := by
  simp [Mat.column, Mat.toMatrix_apply, get_eq]

theorem get_dualGrad :
    (o.steeringModel h).dualGrad.get = o.jacobian.toMatrixᵀ *ᵥ h.toMatrix *ᵥ o.grad.get := by
  funext k
  show ((Vector.ofFn fun k ↦ o.jacobian.column k).map fun g ↦ plainDot g (h.mulVec o.grad)).get k = _
  rw [get_map, get_ofFn, plainDot_eq, Mat.get_mulVec]
  exact Finset.sum_congr rfl fun i _ ↦ by rw [get_column_jacobian]; rfl

theorem toMatrix_dualHessian (hsymm : h.toMatrix.IsSymm) :
    (o.steeringModel h).dualHessian.toMatrix
      = o.jacobian.toMatrixᵀ * h.toMatrix * o.jacobian.toMatrix := by
  have hentry : (Mat.ofFn fun i j ↦ plainSum fun l ↦
      (Vector.ofFn fun k ↦ o.jacobian.column k).get i l * (h.mul o.jacobian).get l j).toMatrix
        = o.jacobian.toMatrixᵀ * (h.toMatrix * o.jacobian.toMatrix) := by
    ext i j
    rw [Mat.toMatrix_ofFn, of_apply, plainSum_eq, mul_apply]
    refine Finset.sum_congr rfl fun l _ ↦ ?_
    rw [get_ofFn, get_column_jacobian, transpose_apply, ← Mat.toMatrix_mul]
    rfl
  have hdual : (o.jacobian.toMatrixᵀ * (h.toMatrix * o.jacobian.toMatrix)).IsSymm := by
    rw [IsSymm, transpose_mul, transpose_mul, transpose_transpose, hsymm.eq, Matrix.mul_assoc]
  rw [Matrix.mul_assoc, ← hentry]
  exact Mat.toMatrix_symmetrized _ (hentry ▸ hdual)

theorem posSemidef_dualHessian (hh : h.toMatrix.PosSemidef) :
    (o.steeringModel h).dualHessian.toMatrix.PosSemidef := by
  rw [toMatrix_dualHessian o h (Mat.isSymm_of_posSemidef hh),
    ← conjTranspose_eq_transpose_of_trivial]
  exact hh.conjTranspose_mul_mul_same _

/-- The direction is the negative gradient of the Lagrange function, in the metric of `h`. -/
theorem directionOf_eq (μ : ℝ) (y : Vector ℝ o.constraints.length) :
    (o.steeringModel h).directionOf μ y = -h.mulVec (o.lagrangianGrad μ y) := by
  refine ext_get fun i ↦ congrFun ?_ i
  rw [SteeringModel.directionOf, get_neg, get_add, get_scale, Mat.get_mulVec, get_curvedGrad,
    toMatrix_curvedGrads, get_neg, Mat.get_mulVec, get_lagrangianGrad, mulVec_add, mulVec_smul,
    mulVec_mulVec]

/-! ## The dual program -/

theorem contains_multipliers (y : Vector ℝ o.constraints.length) :
    (o.steeringModel h).multipliers.Contains y ↔ o.IsMultiplier y.get := by
  show (∀ k, _) ↔ ∀ k, _
  refine forall_congr' fun k ↦ ?_
  simp

/-- Half of the curvature of the dual program is nonnegative, so it has a minimiser. -/
theorem exists_isMinimizer_program (μ : ℝ) : ∃ y, ((o.steeringModel h).program μ).IsMinimizer y := by
  refine QuadraticProgram.exists_isMinimizer_of_box _
    (fun k ↦ if k < o.ineq.length then 0 else -1) (fun _ ↦ 1) (fun k ↦ ?_) ?_
  · show (if k.val < o.ineq.length then (0 : ℝ) else -1) ≤ 1
    split_ifs <;> norm_num
  · show multiplierBox _ _ = _
    rw [multiplierBox]
    congr 1
    exact ext_get fun i ↦ by simp

variable {o h}

/-- **The gradient of the dual program is the negative of the linearised constraint values.** -/
theorem gradient_program (hsymm : h.toMatrix.IsSymm) (μ : ℝ) (y : Vector ℝ o.constraints.length) :
    ((o.steeringModel h).program μ).gradient y
      = -o.linearizedVec ((o.steeringModel h).directionOf μ y).get := by
  show (o.steeringModel h).dualHessian.toMatrix *ᵥ y.get
    + (scale (o.steeringModel h).dualGrad μ - (o.steeringModel h).values).get = _
  rw [get_sub, get_scale, get_values, get_dualGrad, toMatrix_dualHessian o h hsymm, directionOf_eq,
    get_neg, Mat.get_mulVec, get_lagrangianGrad, linearizedVec]
  simp only [mulVec_add, mulVec_smul, mulVec_neg, mulVec_mulVec, Matrix.mul_assoc]
  abel

/-- A minimiser of the dual program is at least as good a choice of multipliers for the linearised
constraint values as any other. -/
theorem dotProduct_linearizedVec_le {μ : ℝ} {y : Vector ℝ o.constraints.length}
    (hy : ((o.steeringModel h).program μ).IsMinimizer y) (hsymm : h.toMatrix.IsSymm)
    {z : Fin o.constraints.length → ℝ} (hz : o.IsMultiplier z) :
    z ⬝ᵥ o.linearizedVec ((o.steeringModel h).directionOf μ y).get
      ≤ y.get ⬝ᵥ o.linearizedVec ((o.steeringModel h).directionOf μ y).get := by
  have hdual : ((o.steeringModel h).program μ).hessian.toMatrix.IsSymm := Mat.isSymm_symmetrized _
  have hslope := hy.gradient_nonneg hdual
    ((contains_multipliers o h (Vector.ofFn z)).2 ((get_ofFn_eq z).symm ▸ hz))
  rw [gradient_program hsymm, get_ofFn_eq, neg_dotProduct, dotProduct_sub] at hslope
  rw [dotProduct_comm z, dotProduct_comm y.get]
  linarith

theorem isMultiplier_of_isMinimizer {μ : ℝ} {y : Vector ℝ o.constraints.length}
    (hy : ((o.steeringModel h).program μ).IsMinimizer y) : o.IsMultiplier y.get :=
  (contains_multipliers o h y).1 hy.contains

/-- If no multipliers are a better choice for the linearised constraint values, these are a minimiser. -/
theorem isMinimizer_of_forall_le {μ : ℝ} {y : Vector ℝ o.constraints.length}
    (hh : h.toMatrix.PosSemidef) (hy : o.IsMultiplier y.get)
    (hle : ∀ z, o.IsMultiplier z →
      z ⬝ᵥ o.linearizedVec ((o.steeringModel h).directionOf μ y).get
        ≤ y.get ⬝ᵥ o.linearizedVec ((o.steeringModel h).directionOf μ y).get) :
    ((o.steeringModel h).program μ).IsMinimizer y := by
  refine QuadraticProgram.isMinimizer_of_gradient_nonneg (posSemidef_dualHessian o h hh)
    ((contains_multipliers o h y).2 hy) fun z hz ↦ ?_
  have hbest := hle z.get ((contains_multipliers o h z).1 hz)
  rw [gradient_program (Mat.isSymm_of_posSemidef hh), neg_dotProduct, dotProduct_sub,
    dotProduct_comm _ z.get, dotProduct_comm _ y.get]
  linarith

/-- **A minimiser of the dual program attains the linearised violation of its direction.** -/
theorem linearizedViolation_eq_of_isMinimizer {μ : ℝ} {y : Vector ℝ o.constraints.length}
    (hy : ((o.steeringModel h).program μ).IsMinimizer y) (hsymm : h.toMatrix.IsSymm) :
    o.linearizedViolation ((o.steeringModel h).directionOf μ y) true
      = y.get ⬝ᵥ o.linearizedVec ((o.steeringModel h).directionOf μ y).get := by
  refine le_antisymm ?_
    (dotProduct_linearizedVec_le_linearizedViolation (isMultiplier_of_isMinimizer hy) _)
  rw [linearizedViolation_eq_sum, ← sum_multiplierAt_mul]
  exact dotProduct_linearizedVec_le hy hsymm (o.isMultiplier_multiplierAt _)

end Observation

/-! ## What the actions return -/

namespace SteeringModel

variable {m : Nat}

/-- The action that makes a direction passes on what the service says. -/
theorem run_direction (model : SteeringModel ℝ n m) (solve : QpService σ ℝ) (μ : ℝ) (s : σ) :
    (model.direction solve μ).run s = ((solve (model.program μ) s).1.map (model.directionOf μ),
      (solve (model.program μ) s).2) := by
  rw [direction, run_bind_apply]
  have hrun : ExceptT.run (m := StateM σ) (solve (model.program μ)) s
      = solve (model.program μ) s := rfl
  rw [hrun]
  cases (solve (model.program μ) s).1 with
  | error e => rfl
  | ok y =>
    simp only [allFinite_real, if_true]
    rfl

theorem direction_eq_ok {model : SteeringModel ℝ n m} {solve : QpService σ ℝ} {μ : ℝ} {s s' : σ}
    {d : Vector ℝ n} (hd : (model.direction solve μ).run s = (.ok d, s')) :
    ∃ y, (solve (model.program μ) s).1 = .ok y ∧ d = model.directionOf μ y := by
  rw [run_direction] at hd
  cases hs : (solve (model.program μ) s).1 with
  | error e => rw [hs] at hd; cases hd
  | ok y =>
    rw [hs] at hd
    exact ⟨y, rfl, (Except.ok.inj (Prod.ext_iff.1 hd).1).symm⟩

end SteeringModel

namespace SteeringOutcome

variable {c : ℝ}
  {attempt : (shrinks : Nat) → (μ : ℝ) → ExceptT QpError (StateM σ) (SteeringOutcome ℝ n)}

/-- If every attempt succeeds and one is made, so does the choice among them. -/
theorem exists_firstAdequate {left shrinks : Nat} {μ : ℝ} {best : Option (SteeringOutcome ℝ n)}
    {s : σ} (hattempt : ∀ k ν s₁, ∃ next s₂, (attempt k ν).run s₁ = (.ok next, s₂)) :
    ∃ out s', (firstAdequate c attempt (left + 1) shrinks μ best).run s = (.ok out, s') := by
  induction left generalizing shrinks μ best s with
  | zero =>
    obtain ⟨next, s₁, hnext⟩ := hattempt shrinks μ s
    rw [firstAdequate, run_bind_of_ok hnext]
    by_cases had : next.adequate = true
    · exact ⟨next, s₁, by rw [if_pos had]; rfl⟩
    · exact ⟨orBetter best next, s₁, by rw [if_neg had]; rfl⟩
  | succ left ih =>
    obtain ⟨next, s₁, hnext⟩ := hattempt shrinks μ s
    rw [firstAdequate, run_bind_of_ok hnext]
    by_cases had : next.adequate = true
    · exact ⟨next, s₁, by rw [if_pos had]; rfl⟩
    · simp only [if_neg had]
      exact ih

end SteeringOutcome

section Steer

variable {solve : QpService σ ℝ} {options : SteeringOptions ℝ} {o : Observation ℝ n}
  {h : Mat ℝ n n} {μ : ℝ}

/-- **What steering returns**: a direction of the model for the weight it returns with it, and that
weight is the given one, shrunk as often as it says. -/
theorem steer_eq_ok {s s' : σ} {out : SteeringOutcome ℝ n}
    (hout : (steer solve options o h μ).run s = (.ok out, s')) :
    out.shrinks ≤ options.maxShrinks ∧ out.mu = μ * options.shrinkFactor ^ out.shrinks ∧
      ∃ s₁ s₂, ((o.steeringModel h).direction solve out.mu).run s₁ = (.ok out.direction, s₂) := by
  obtain ⟨hshrinks, hmu, hdirection⟩ := run_steer_eq_ok hout
  rw [mul_right_iterate] at hmu
  exact ⟨hshrinks, hmu, hdirection⟩

/-- With a service that answers, steering returns something. -/
theorem exists_steer (hsolve : solve.AnswersBoxes) (s : σ) :
    ∃ out s', (steer solve options o h μ).run s = (.ok out, s') := by
  have hdirection (ν : ℝ) (s₁ : σ) :
      ∃ d s₂, ((o.steeringModel h).direction solve ν).run s₁ = (.ok d, s₂) := by
    obtain ⟨y, hy⟩ := hsolve s₁ rfl (o.exists_isMinimizer_program h ν)
    rw [SteeringModel.run_direction, hy]
    exact ⟨_, _, rfl⟩
  obtain ⟨reference, s₁, href⟩ := hdirection 0 s
  rw [steer, run_bind_of_ok href]
  refine SteeringOutcome.exists_firstAdequate fun k ν s₂ ↦ ?_
  obtain ⟨d, s₃, hd⟩ := hdirection ν s₂
  rw [run_bind_of_ok hd]
  exact ⟨_, _, rfl⟩

/-- The directions of the model belong to minimisers of its dual program, if the service is exact. -/
theorem exists_isMinimizer_of_direction (hsolve : solve.ExactOnBoxes) {s s' : σ} {d : Vector ℝ n}
    (hd : ((o.steeringModel h).direction solve μ).run s = (.ok d, s')) :
    ∃ y, ((o.steeringModel h).program μ).IsMinimizer y ∧ d = (o.steeringModel h).directionOf μ y := by
  obtain ⟨y, hy, rfl⟩ := SteeringModel.direction_eq_ok hd
  exact ⟨y, hsolve rfl (o.exists_isMinimizer_program h μ) hy, rfl⟩

end Steer

end ExactPenalty
