import Mathlib
import ExactPenalty.Proofs.Options
import ExactPenalty.Proofs.Steering.Reference

/-!
# Steering reaches its target

With the sum of the violations for the model, the target of steering can be met: as the weight goes to zero,
the direction comes to remove what the direction of weight zero does, and a fraction of that is all that is
asked for.  So a positive reference is reached after finitely many shrinks, whatever the weight was at the
start, and from then on it does not matter how many more would have been allowed.

The multipliers may jump from one weight to the next, and only the directions tend to a limit.  Two
minimisers `y` and `z`, for the weights `μ` and zero, are each the better choice of multipliers for the
constraint values that they lead to.  Taken together, the two facts bound the distance of the two
directions by `μ`, in the metric of `H` (`gap_dotProduct_le`); and of what the one removes, the other misses no
more than a multiple of `μ` (`predictedReduction_gap_le`).

## What is here

* `predictedReduction_gap_le` — what is lost on the way from weight zero to a small weight.
* `exists_suffices` — some weight is small enough.
* `steering_reaches_target` — so steering succeeds.
-/

set_option autoImplicit false

namespace ExactPenalty

open Scalar Linear Matrix ExactPenalty.Action

variable {σ : Type} {n : Nat}

/-- A quadratic form on three vectors, two of which are close to each other. -/
theorem neg_dotProduct_mulVec_le {M : Matrix (Fin n) (Fin n) ℝ} (hM : M.PosSemidef) {μ : ℝ}
    (hpos : 0 < μ) (hle : μ ≤ 1) {w g δ : Fin n → ℝ} (hgap : (δ - μ • g) ⬝ᵥ M *ᵥ δ ≤ 0) :
    -((w + δ - μ • g) ⬝ᵥ M *ᵥ δ) ≤ μ / 2 * (w ⬝ᵥ M *ᵥ w + g ⬝ᵥ M *ᵥ g) := by
  have hswap := Mat.dotProduct_mulVec_comm (Mat.isSymm_of_posSemidef hM)
  have hgrad := hM.dotProduct_mulVec_nonneg (δ - μ • g)
  have hstart := hM.dotProduct_mulVec_nonneg (δ + μ • w)
  simp only [star_trivial, mulVec_sub, mulVec_add, mulVec_smul, dotProduct_sub, dotProduct_add,
    sub_dotProduct, add_dotProduct, smul_dotProduct, dotProduct_smul, smul_eq_mul, hswap δ g,
    hswap δ w] at hgap hgrad hstart ⊢
  set D := δ ⬝ᵥ M *ᵥ δ
  have hD : D ≤ μ ^ 2 * (g ⬝ᵥ M *ᵥ g) := by linarith
  have hscaled : μ * (2 * (-(w ⬝ᵥ M *ᵥ δ + D - μ * (g ⬝ᵥ M *ᵥ δ))))
      ≤ μ * (μ * (w ⬝ᵥ M *ᵥ w + g ⬝ᵥ M *ᵥ g)) := by
    nlinarith
  linarith [le_of_mul_le_mul_left hscaled hpos]

namespace Observation

variable {o : Observation ℝ n} {h : Mat ℝ n n} {μ : ℝ} {y z : Vector ℝ o.constraints.length}

theorem jacobian_mulVec_eq (o : Observation ℝ n) (μ : ℝ) (y : Vector ℝ o.constraints.length) :
    o.jacobian.toMatrix *ᵥ y.get = (o.lagrangianGrad μ y).get - μ • o.grad.get := by
  rw [get_lagrangianGrad, add_sub_cancel_left]

/-- How much the linearised constraint values after two directions differ, combined with any numbers. -/
theorem dotProduct_linearizedVec_sub (x : Fin o.constraints.length → ℝ) :
    x ⬝ᵥ o.linearizedVec ((o.steeringModel h).directionOf μ y).get
        - x ⬝ᵥ o.linearizedVec ((o.steeringModel h).directionOf 0 z).get
      = -(o.jacobian.toMatrix *ᵥ x ⬝ᵥ
          h.toMatrix *ᵥ ((o.lagrangianGrad μ y).get - (o.lagrangianGrad 0 z).get)) := by
  rw [dotProduct_linearizedVec_directionOf, dotProduct_linearizedVec_directionOf, mulVec_sub,
    dotProduct_sub]
  ring

/-- **Two minimisers are close to each other in the metric of `h`**: each is the better choice of multipliers
for its own direction. -/
theorem gap_dotProduct_le (hy : ((o.steeringModel h).program μ).IsMinimizer y)
    (hz : ((o.steeringModel h).program 0).IsMinimizer z) (hsymm : h.toMatrix.IsSymm) :
    ((o.lagrangianGrad μ y).get - (o.lagrangianGrad 0 z).get - μ • o.grad.get) ⬝ᵥ
      h.toMatrix *ᵥ ((o.lagrangianGrad μ y).get - (o.lagrangianGrad 0 z).get) ≤ 0 := by
  have hfirst := dotProduct_linearizedVec_le hy hsymm (isMultiplier_of_isMinimizer hz)
  have hsecond := dotProduct_linearizedVec_le hz hsymm (isMultiplier_of_isMinimizer hy)
  have hy' := dotProduct_linearizedVec_sub (h := h) (μ := μ) (y := y) (z := z) y.get
  have hz' := dotProduct_linearizedVec_sub (h := h) (μ := μ) (y := y) (z := z) z.get
  rw [o.jacobian_mulVec_eq μ y] at hy'
  rw [← lagrangianGrad_zero] at hz'
  rw [sub_right_comm, sub_dotProduct]
  linarith

/-- What the direction of weight zero removes, the direction of a small weight removes up to a multiple of
the weight. -/
theorem predictedReduction_gap_le (hy : ((o.steeringModel h).program μ).IsMinimizer y)
    (hz : ((o.steeringModel h).program 0).IsMinimizer z) (hh : h.toMatrix.PosSemidef) (hpos : 0 < μ)
    (hle : μ ≤ 1) :
    o.predictedReduction true ((o.steeringModel h).directionOf 0 z)
        - o.predictedReduction true ((o.steeringModel h).directionOf μ y)
      ≤ μ / 2 * ((o.lagrangianGrad 0 z).get ⬝ᵥ h.toMatrix *ᵥ (o.lagrangianGrad 0 z).get
          + o.grad.get ⬝ᵥ h.toMatrix *ᵥ o.grad.get) := by
  have hsymm : h.toMatrix.IsSymm := Mat.isSymm_of_posSemidef hh
  -- The multipliers `y` attain the violation after their own direction, and bound that after the other.
  have hattained := linearizedViolation_eq_of_isMinimizer hy hsymm
  have hbound := dotProduct_linearizedVec_le hz hsymm (isMultiplier_of_isMinimizer hy)
  rw [← linearizedViolation_eq_of_isMinimizer hz hsymm] at hbound
  have hsub := dotProduct_linearizedVec_sub (h := h) (μ := μ) (y := y) (z := z) y.get
  rw [o.jacobian_mulVec_eq μ y] at hsub
  have hgap := neg_dotProduct_mulVec_le (w := (o.lagrangianGrad 0 z).get) hh hpos hle
    (gap_dotProduct_le hy hz hsymm)
  rw [add_sub_cancel] at hgap
  calc o.predictedReduction true ((o.steeringModel h).directionOf 0 z)
        - o.predictedReduction true ((o.steeringModel h).directionOf μ y)
      = o.linearizedViolation ((o.steeringModel h).directionOf μ y) true
        - o.linearizedViolation ((o.steeringModel h).directionOf 0 z) true := sub_sub_sub_cancel_left _ _ _
    _ ≤ _ := by linarith

end Observation

/-! ## Enough shrinks -/

/-- Shrunk often enough, a weight is as small as is asked for. -/
theorem SteeringOptions.exists_weight_lt (options : SteeringOptions ℝ)
    (hfactor : InOpenUnit options.shrinkFactor) {μ ε : ℝ} (hμ : 0 < μ) (hε : 0 < ε) :
    ∃ j, 0 < options.weight μ j ∧ options.weight μ j < ε := by
  obtain ⟨j, hj⟩ := exists_pow_lt_of_lt_one (div_pos hε hμ) hfactor.2
  refine ⟨j, ?_, ?_⟩ <;> rw [weight_real]
  · exact mul_pos hμ (pow_pos hfactor.1 j)
  · rwa [lt_div_iff₀' hμ] at hj

section Steer

variable {options : SteeringOptions ℝ} {o : Observation ℝ n} {h : Mat ℝ n n} {μ : ℝ}

/-- **Some weight is so small that its direction removes enough.** -/
theorem exists_suffices (hl1 : options.l1Model = true) (hfraction : InOpenUnit options.violationFraction)
    (hfactor : InOpenUnit options.shrinkFactor) (hh : h.toMatrix.PosSemidef) (hμ : 0 < μ)
    {z : Vector ℝ o.constraints.length} (hz : ((o.steeringModel h).program 0).IsMinimizer z)
    (href : 0 < o.predictedReduction true ((o.steeringModel h).directionOf 0 z)) :
    ∃ j, ∀ y, ((o.steeringModel h).program (options.weight μ j)).IsMinimizer y →
      options.Suffices o ((o.steeringModel h).directionOf 0 z)
        ((o.steeringModel h).directionOf (options.weight μ j) y) := by
  let reference := o.predictedReduction true ((o.steeringModel h).directionOf 0 z)
  let k := (o.lagrangianGrad 0 z).get ⬝ᵥ h.toMatrix *ᵥ (o.lagrangianGrad 0 z).get
    + o.grad.get ⬝ᵥ h.toMatrix *ᵥ o.grad.get
  have hk : 0 ≤ k := add_nonneg (hh.dotProduct_mulVec_nonneg _) (hh.dotProduct_mulVec_nonneg _)
  have hspare : 0 < (1 - options.violationFraction) * reference :=
    mul_pos (sub_pos.2 hfraction.2) href
  obtain ⟨j, hpos, hlt⟩ := options.exists_weight_lt hfactor hμ
    (lt_min one_pos (div_pos hspare (by linarith : 0 < k + 1)))
  refine ⟨j, fun y hy ↦ ?_⟩
  have hgap := Observation.predictedReduction_gap_le hy hz hh hpos (hlt.trans_le (min_le_left _ _)).le
  change reference - o.predictedReduction true _ ≤ options.weight μ j / 2 * k at hgap
  have hsmall : options.weight μ j * (k + 1) < (1 - options.violationFraction) * reference :=
    (lt_div_iff₀ (by linarith)).1 (hlt.trans_le (min_le_right _ _))
  rw [SteeringOptions.Suffices, hl1]
  show options.violationFraction * reference ≤ _
  have hloss : options.weight μ j / 2 * k ≤ options.weight μ j * (k + 1) := by nlinarith
  linarith

end Steer

/-- **Steering reaches its target, if the sum of the violations is the model.**  For a positive definite
matrix and a service that answers with minimisers, at every observation, there is one direction of weight
zero, whatever the service has been asked before, and

* for every minimiser `y` of its dual program it removes at least `yᵀ Jᵀ H J y`, which is not negative;
* what it removes is the reference of steering;
* if that is positive, then for every weight, fraction and factor there is a number of shrinks after which the
  direction of the shrunk weight meets the target, and steering returns it, as adequate, whenever it is allowed
  so many shrinks or more. -/
theorem steering_reaches_target {solve : QpService σ ℝ} (hsolve : solve.ExactOnBoxes)
    (hanswers : solve.AnswersBoxes) (o : Observation ℝ n) {h : Mat ℝ n n} (hh : h.toMatrix.PosDef) :
    ∃ d₀, (∀ s, (((o.steeringModel h).direction solve 0).run s).1 = .ok d₀) ∧
      (∀ y, ((o.steeringModel h).program 0).IsMinimizer y →
        0 ≤ o.jacobian.toMatrix *ᵥ y.get ⬝ᵥ h.toMatrix *ᵥ o.jacobian.toMatrix *ᵥ y.get ∧
        o.jacobian.toMatrix *ᵥ y.get ⬝ᵥ h.toMatrix *ᵥ o.jacobian.toMatrix *ᵥ y.get
          ≤ o.predictedReduction true d₀) ∧
      (∀ (options : SteeringOptions ℝ) (μ : ℝ) (s : σ), options.l1Model = true →
        ∃ out, ((steer solve options o h μ).run s).1 = .ok out ∧
          out.reference = o.predictedReduction true d₀) ∧
      (0 < o.predictedReduction true d₀ → ∀ (options : SteeringOptions ℝ) (μ : ℝ),
        options.l1Model = true → InOpenUnit options.violationFraction →
        InOpenUnit options.shrinkFactor → 0 < μ →
        ∃ J d, (∀ s, (((o.steeringModel h).direction solve (options.weight μ J)).run s).1 = .ok d) ∧
          options.Suffices o d₀ d ∧
          ∀ N ≥ J, ∀ s, ((steer solve { options with maxShrinks := N } o h μ).run s).1
            = .ok (options.outcome o d₀ J (options.weight μ J) d true)) := by
  have hexists (ν : ℝ) := o.exists_isMinimizer_program h ν
  choose y hy using hexists
  have hgives (ν : ℝ) : Gives ((o.steeringModel h).direction solve ν)
      (.ok ((o.steeringModel h).directionOf ν (y ν))) :=
    Observation.gives_direction hsolve hanswers hh (hy ν)
  refine ⟨(o.steeringModel h).directionOf 0 (y 0), hgives 0, fun z hz ↦ ?_, ?_, ?_⟩
  · rw [← Observation.directionOf_eq_of_isMinimizer (hy 0) hz hh]
    exact Observation.quadratic_le_predictedReduction hz hh.posSemidef
  · intro options μ s hl1
    obtain ⟨out, hout, -, href⟩ := exists_reference hsolve hanswers options o hh μ s
    have hreference := href (y 0) (hy 0)
    rw [hl1] at hreference
    exact ⟨out, hout, hreference⟩
  · intro href options μ hl1 hfraction hfactor hμ
    have hsome : ∃ j, options.Suffices o ((o.steeringModel h).directionOf 0 (y 0))
        ((o.steeringModel h).directionOf (options.weight μ j) (y (options.weight μ j))) := by
      obtain ⟨j, hj⟩ := exists_suffices hl1 hfraction hfactor hh.posSemidef hμ (hy 0) href
      exact ⟨j, hj _ (hy _)⟩
    -- The first weight that suffices is reached under every limit that allows for it.
    let d (j : ℕ) : Vector ℝ n :=
      (o.steeringModel h).directionOf (options.weight μ j) (y (options.weight μ j))
    refine ⟨Nat.find hsome, d (Nat.find hsome), hgives _, Nat.find_spec hsome, fun N hN s ↦ ?_⟩
    have hshort : FallShort solve { options with maxShrinks := N } o h
        ((o.steeringModel h).directionOf 0 (y 0)) μ (Nat.find hsome) d :=
      fun j hj ↦ ⟨hgives _, Nat.find_min hsome hj⟩
    exact gives_steer_of_suffices (hgives 0) hshort hN (hgives _) (Nat.find_spec hsome) s

/-- The multiplier of the half-line is one. -/
theorem isMinimizer_halfLine :
    ((halfLine.steeringModel (.identity ℝ 1)).program 0).IsMinimizer
      (Vector.replicate halfLine.constraints.length 1) := by
  have hzero : halfLine.linearizedVec (Vector.replicate 1 (1 - 0)).get = 0 := by
    funext k
    rw [Observation.linearizedVec, Pi.add_apply, Observation.jacobian_transpose_mulVec, dotProduct,
      Fin.sum_univ_one, get_replicate, Subsingleton.elim (α := Fin 1) k 0]
    show (1 : ℝ) + -1 * (1 - 0) = 0
    norm_num
  refine Observation.isMinimizer_of_forall_le Mat.posDef_identity.posSemidef (fun k ↦ ?_) fun z _ ↦ ?_
  · rw [get_replicate]
    split_ifs <;> norm_num
  · rw [directionOf_halfLine, hzero, dotProduct_zero, dotProduct_zero]

/-- On the half-line steering succeeds for all large limits alike. -/
theorem steering_reaches_target_halfLine :
    QpService.exact.ExactOnBoxes ∧ QpService.exact.AnswersBoxes ∧ (Mat.identity ℝ 1).toMatrix.PosDef ∧
    ∃ d₀, 0 < halfLine.predictedReduction true d₀ ∧
      ∃ J d, Options.standard.steering.Suffices halfLine d₀ d ∧ ∀ N ≥ J,
        ((steer QpService.exact { Options.standard.steering with maxShrinks := N } halfLine
            (.identity ℝ 1) 1).run ()).1
          = .ok (Options.standard.steering.outcome halfLine d₀ J
              (Options.standard.steering.weight 1 J) d true) := by
  have hh : (Mat.identity ℝ 1).toMatrix.PosDef := Mat.posDef_identity
  obtain ⟨d₀, -, hbound, -, hreached⟩ := steering_reaches_target QpService.exact_exactOnBoxes
    QpService.exact_answersBoxes halfLine hh
  have href : 0 < halfLine.predictedReduction true d₀ := by
    refine lt_of_lt_of_le ?_ (hbound _ isMinimizer_halfLine).2
    rw [Mat.toMatrix_identity, one_mulVec, dotProduct, Fin.sum_univ_one, jacobian_halfLine]
    norm_num
  obtain ⟨J, d, -, hsuffices, hout⟩ := hreached href Options.standard.steering 1 rfl
    Options.isValid_standard.violationFraction Options.isValid_standard.shrinkFactor one_pos
  exact ⟨QpService.exact_exactOnBoxes, QpService.exact_answersBoxes, hh, d₀, href, J, d, hsuffices,
    fun N hN ↦ hout N hN ()⟩

end ExactPenalty
