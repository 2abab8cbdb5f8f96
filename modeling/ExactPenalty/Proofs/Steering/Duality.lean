import Mathlib
import ExactPenalty.Proofs.Steering

/-!
# The steered direction minimises the penalty model

The dual program is solved in place of the problem that steering is about: minimise the penalty
function with linear constraints and a quadratic term of curvature `H⁻¹`.  Here the two are shown to
be the same problem.  Any vector of multipliers bounds the penalty model from below by a quadratic
function; for a minimiser of the dual program that function touches the model at its own direction,
and grows away from there by the quadratic term (`penaltyModel_add_le`).

So the direction is the only minimiser of the model, and it does not depend on which minimiser of
the dual program it was made from — of which there are many as soon as gradients are dependent.
-/

set_option autoImplicit false

namespace ExactPenalty

open Linear Matrix ExactPenalty.Action

variable {σ : Type} {n : Nat}

/-- The penalty function with linear constraints and a quadratic term of curvature `h⁻¹`, at the
displacement `e` from the point of the observation. -/
noncomputable def Observation.penaltyModel (o : Observation ℝ n) (h : Mat ℝ n n) (μ : ℝ)
    (e : Vector ℝ n) : ℝ :=
  0.5 * (e.get ⬝ᵥ h.toMatrix⁻¹ *ᵥ e.get) + μ * dot o.grad e +
    ((o.ineq.map fun c ↦ max (c.value + dot c.grad e) 0).sum +
      (o.eq.map fun c ↦ |c.value + dot c.grad e|).sum)

namespace Observation

variable {o : Observation ℝ n} {h : Mat ℝ n n} {μ : ℝ}

theorem penaltyModel_eq (e : Vector ℝ n) :
    o.penaltyModel h μ e = 0.5 * (e.get ⬝ᵥ h.toMatrix⁻¹ *ᵥ e.get) + μ * (o.grad.get ⬝ᵥ e.get)
      + o.linearizedViolation e true := by
  rw [penaltyModel, dot_eq, linearizedViolation, if_pos rfl, violationL1, ← List.sum_eq_foldl,
    ← List.sum_eq_foldl, List.map_map, List.map_map]
  simp only [Function.comp_def, Constraint.linearized, dot_eq, plainDot_eq, Scalar.larger_real,
    Scalar.abs_real]

/-- The quadratic function that multipliers `y` bound the model by. -/
noncomputable def dualBound (o : Observation ℝ n) (h : Mat ℝ n n) (μ : ℝ)
    (y : Vector ℝ o.constraints.length) (e : Fin n → ℝ) : ℝ :=
  0.5 * (e ⬝ᵥ h.toMatrix⁻¹ *ᵥ e) + (o.lagrangianGrad μ y).get ⬝ᵥ e + y.get ⬝ᵥ o.valueVec

theorem dualBound_eq (y : Vector ℝ o.constraints.length) (e : Fin n → ℝ) :
    o.dualBound h μ y e = 0.5 * (e ⬝ᵥ h.toMatrix⁻¹ *ᵥ e) + μ * (o.grad.get ⬝ᵥ e)
      + y.get ⬝ᵥ o.linearizedVec e := by
  rw [dualBound, get_lagrangianGrad, add_dotProduct, jacobian_mulVec_dotProduct, smul_dotProduct,
    linearizedVec, dotProduct_add, smul_eq_mul]
  ring

/-- No multipliers give more than the model … -/
theorem dualBound_le {y : Vector ℝ o.constraints.length} (hy : o.IsMultiplier y.get)
    (e : Vector ℝ n) : o.dualBound h μ y e.get ≤ o.penaltyModel h μ e := by
  rw [dualBound_eq, penaltyModel_eq]
  gcongr
  exact dotProduct_linearizedVec_le_linearizedViolation hy e

/-- … and a minimiser of the dual program gives just the model at its own direction. -/
theorem dualBound_directionOf {y : Vector ℝ o.constraints.length}
    (hy : ((o.steeringModel h).program μ).IsMinimizer y) (hsymm : h.toMatrix.IsSymm) :
    o.dualBound h μ y ((o.steeringModel h).directionOf μ y).get
      = o.penaltyModel h μ ((o.steeringModel h).directionOf μ y) := by
  rw [dualBound_eq, penaltyModel_eq, linearizedViolation_eq_of_isMinimizer hy hsymm]

/-- The bound has its vertex at the direction that belongs to the multipliers. -/
theorem dualBound_add (hh : h.toMatrix.PosDef) (y : Vector ℝ o.constraints.length)
    (u : Fin n → ℝ) :
    o.dualBound h μ y (((o.steeringModel h).directionOf μ y).get + u)
      = o.dualBound h μ y ((o.steeringModel h).directionOf μ y).get
        + 0.5 * (u ⬝ᵥ h.toMatrix⁻¹ *ᵥ u) := by
  let d := ((o.steeringModel h).directionOf μ y).get
  let w := (o.lagrangianGrad μ y).get
  have hinv : h.toMatrix⁻¹ *ᵥ d = -w := by
    have hdet : IsUnit h.toMatrix.det := (isUnit_iff_isUnit_det _).1 hh.isUnit
    show h.toMatrix⁻¹ *ᵥ ((o.steeringModel h).directionOf μ y).get = _
    rw [directionOf_eq, get_neg, Mat.get_mulVec, mulVec_neg, mulVec_mulVec,
      nonsing_inv_mul _ hdet, one_mulVec]
  have hswap : d ⬝ᵥ h.toMatrix⁻¹ *ᵥ u = -(w ⬝ᵥ u) := by
    have hsymm : h.toMatrix⁻¹.IsSymm := Mat.isSymm_of_posSemidef hh.inv.posSemidef
    rw [dotProduct_mulVec, ← mulVec_transpose, hsymm.eq, hinv, neg_dotProduct]
  show o.dualBound h μ y (d + u) = o.dualBound h μ y d + _
  simp only [dualBound, mulVec_add, add_dotProduct, dotProduct_add, hinv, hswap, dotProduct_neg]
  rw [dotProduct_comm u w]
  ring

/-- **The model grows from the steered direction by the quadratic term at least.** -/
theorem penaltyModel_add_le {y : Vector ℝ o.constraints.length}
    (hy : ((o.steeringModel h).program μ).IsMinimizer y) (hh : h.toMatrix.PosDef)
    (e : Vector ℝ n) :
    o.penaltyModel h μ ((o.steeringModel h).directionOf μ y)
        + 0.5 * ((e - (o.steeringModel h).directionOf μ y).get ⬝ᵥ
          h.toMatrix⁻¹ *ᵥ (e - (o.steeringModel h).directionOf μ y).get)
      ≤ o.penaltyModel h μ e := by
  have hsymm : h.toMatrix.IsSymm := Mat.isSymm_of_posSemidef hh.posSemidef
  calc o.penaltyModel h μ ((o.steeringModel h).directionOf μ y) + _
      = o.dualBound h μ y (((o.steeringModel h).directionOf μ y).get
          + (e - (o.steeringModel h).directionOf μ y).get) := by
        rw [dualBound_add hh, dualBound_directionOf hy hsymm]
    _ = o.dualBound h μ y e.get := by rw [get_sub, add_sub_cancel]
    _ ≤ o.penaltyModel h μ e := dualBound_le (isMultiplier_of_isMinimizer hy) e

/-- The steered direction has the least model. -/
theorem penaltyModel_directionOf_lt {y : Vector ℝ o.constraints.length}
    (hy : ((o.steeringModel h).program μ).IsMinimizer y) (hh : h.toMatrix.PosDef) {e : Vector ℝ n}
    (hne : e ≠ (o.steeringModel h).directionOf μ y) :
    o.penaltyModel h μ ((o.steeringModel h).directionOf μ y) < o.penaltyModel h μ e := by
  have hu : (e - (o.steeringModel h).directionOf μ y).get ≠ 0 := by
    rw [get_sub, sub_ne_zero]
    exact fun heq ↦ hne (ext_get (congrFun heq))
  have hpos := hh.inv.dotProduct_mulVec_pos hu
  rw [star_trivial] at hpos
  exact lt_of_lt_of_le (lt_add_of_pos_right _ (by positivity)) (penaltyModel_add_le hy hh e)

/-- All minimisers of the dual program give the same direction. -/
theorem directionOf_eq_of_isMinimizer {y z : Vector ℝ o.constraints.length}
    (hy : ((o.steeringModel h).program μ).IsMinimizer y)
    (hz : ((o.steeringModel h).program μ).IsMinimizer z) (hh : h.toMatrix.PosDef) :
    (o.steeringModel h).directionOf μ z = (o.steeringModel h).directionOf μ y := by
  by_contra hne
  exact absurd (penaltyModel_directionOf_lt hy hh hne)
    (penaltyModel_directionOf_lt hz hh (Ne.symm hne)).not_gt

end Observation

/-! ## Duality -/

/-- **The steered direction is the only minimiser of the penalty model.**  For a positive definite
matrix, any weight, and any minimiser `y` of the dual program: the direction that the model makes of
`y` is `−H (μ ∇f + J y)`, the penalty model is smaller there than at any other displacement, every
other minimiser of the dual program makes the same direction, and a service that answers with `y`
makes the action return it. -/
theorem steered_direction_minimizes_model (o : Observation ℝ n) {h : Mat ℝ n n}
    (hh : h.toMatrix.PosDef) (μ : ℝ) {y : Vector ℝ o.constraints.length}
    (hy : ((o.steeringModel h).program μ).IsMinimizer y) :
    (o.steeringModel h).directionOf μ y = -h.mulVec (scale o.grad μ + o.jacobian.mulVec y) ∧
    (∀ e, e ≠ (o.steeringModel h).directionOf μ y →
      o.penaltyModel h μ ((o.steeringModel h).directionOf μ y) < o.penaltyModel h μ e) ∧
    (∀ z, ((o.steeringModel h).program μ).IsMinimizer z →
      (o.steeringModel h).directionOf μ z = (o.steeringModel h).directionOf μ y) ∧
    (∀ (solve : QpService σ ℝ) (s : σ), (solve ((o.steeringModel h).program μ) s).1 = .ok y →
      (((o.steeringModel h).direction solve μ).run s).1
        = .ok ((o.steeringModel h).directionOf μ y)) := by
  refine ⟨o.directionOf_eq h μ y, fun e hne ↦ Observation.penaltyModel_directionOf_lt hy hh hne,
    fun z hz ↦ Observation.directionOf_eq_of_isMinimizer hy hz hh, fun solve s hs ↦ ?_⟩
  rw [SteeringModel.run_direction, hs]
  rfl

/-- A violated inequality and a violated equality with the same gradient, on the line. -/
noncomputable def twinObservation : Observation ℝ 1 where
  point := Vector.replicate 1 0
  value := 0
  grad := Vector.replicate 1 1
  ineq := [⟨1, Vector.replicate 1 (-1)⟩]
  eq := [⟨1, Vector.replicate 1 (-1)⟩]

/-- Multipliers for the two of them. -/
noncomputable def twinMultipliers (a b : ℝ) : Vector ℝ twinObservation.constraints.length :=
  Vector.ofFn fun k ↦ if k.val = 0 then a else b

theorem grad_twin (k : Fin twinObservation.constraints.length) :
    twinObservation.constraint k = ⟨1, Vector.replicate 1 (-1)⟩ := by
  revert k
  exact Fin.forall_fin_two.2 ⟨rfl, rfl⟩

theorem get_directionOf_twin {a b : ℝ} (hab : a + b = 3 / 2) :
    ((twinObservation.steeringModel (.identity ℝ 1)).directionOf (1 / 2) (twinMultipliers a b)).get
      = fun _ ↦ 1 := by
  have hsum : ∑ k, (twinMultipliers a b).get k = a + b := by
    simp only [twinMultipliers, get_ofFn]
    exact Fin.sum_univ_two _
  rw [Observation.directionOf_eq, get_neg, Mat.get_mulVec, Mat.toMatrix_identity, one_mulVec,
    Observation.get_lagrangianGrad]
  funext i
  have hjac : (twinObservation.jacobian.toMatrix *ᵥ (twinMultipliers a b).get) i = -(3 / 2) := by
    simp only [mulVec, dotProduct, Observation.toMatrix_jacobian, grad_twin]
    rw [← Finset.mul_sum, hsum, hab, Subsingleton.elim i 0]
    show (-1 : ℝ) * (3 / 2) = _
    norm_num
  have hgrad : twinObservation.grad.get i = 1 := by rw [Subsingleton.elim i 0]; rfl
  rw [Pi.neg_apply, Pi.add_apply, Pi.smul_apply, hjac, hgrad]
  norm_num

/-- Multipliers that add up to `3 / 2` bring the linearised values to zero. -/
theorem isMinimizer_twin {a b : ℝ} (ha : 0 ≤ a) (ha' : a ≤ 1) (hb : -1 ≤ b) (hb' : b ≤ 1)
    (hab : a + b = 3 / 2) :
    ((twinObservation.steeringModel (.identity ℝ 1)).program (1 / 2)).IsMinimizer
      (twinMultipliers a b) := by
  have hh : (Mat.identity ℝ 1).toMatrix.PosSemidef := Mat.posDef_identity.posSemidef
  have hzero : twinObservation.linearizedVec (fun _ ↦ 1) = 0 := by
    funext k
    rw [Observation.linearizedVec, Pi.add_apply, Observation.jacobian_transpose_mulVec,
      Observation.valueVec, grad_twin]
    show (1 : ℝ) + ∑ i : Fin 1, (Vector.replicate 1 (-1 : ℝ)).get i * 1 = 0
    rw [Fin.sum_univ_one, get_replicate]
    norm_num
  refine Observation.isMinimizer_of_forall_le hh (Fin.forall_fin_two.2 ⟨⟨ha, ha'⟩, hb, hb'⟩) fun z _ ↦ ?_
  rw [get_directionOf_twin hab, hzero, dotProduct_zero, dotProduct_zero]

/-- With dependent gradients there are many minimisers of the dual program, and one direction. -/
theorem steered_direction_minimizes_model_twin :
    (Mat.identity ℝ 1).toMatrix.PosDef ∧
    ((twinObservation.steeringModel (.identity ℝ 1)).program (1 / 2)).IsMinimizer
      (twinMultipliers (1 / 2) 1) ∧
    ((twinObservation.steeringModel (.identity ℝ 1)).program (1 / 2)).IsMinimizer
      (twinMultipliers 1 (1 / 2)) ∧
    (twinObservation.steeringModel (.identity ℝ 1)).directionOf (1 / 2) (twinMultipliers 1 (1 / 2))
      = (twinObservation.steeringModel (.identity ℝ 1)).directionOf (1 / 2)
        (twinMultipliers (1 / 2) 1) := by
  have hh : (Mat.identity ℝ 1).toMatrix.PosDef := Mat.posDef_identity
  have hy := isMinimizer_twin (a := 1 / 2) (b := 1) (by norm_num) (by norm_num) (by norm_num)
    le_rfl (by norm_num)
  have hz := isMinimizer_twin (a := 1) (b := 1 / 2) zero_le_one le_rfl (by norm_num) (by norm_num)
    (by norm_num)
  obtain ⟨-, -, hunique, -⟩ :=
    steered_direction_minimizes_model (σ := Unit) twinObservation hh (1 / 2) hy
  exact ⟨hh, hy, hz, hunique _ hz⟩

end ExactPenalty
