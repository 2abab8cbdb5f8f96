import Mathlib
import ExactPenalty.Proofs.Steering.Duality
import ExactPenalty.Proofs.Steering.Selection
import ExactPenalty.Proofs.Violation.Linearized

/-!
# The reference of steering

Steering asks of a direction a fraction of what the direction of weight zero removes.  That direction
minimises the sum of the linearised violations, up to a quadratic term, so it removes some of the sum unless
nothing can be removed: at least `yᵀ Jᵀ H J y`, for the multipliers `y` it was made from
(`quadratic_le_predictedReduction`).

If violations are measured by the largest of them, the direction is still the same.  The largest violation is
at most the sum, and so what has been said of the sum says something of the largest as well, less the
difference of the two at the iterate (`predictedReduction_sub_le`).  More is not true: the direction can bring
down two violations by raising a third, and the reference is negative then.  A fraction of a negative number
lies above it, so the direction that the reference is taken from does not meet the target either.

## What is here

* `Observation.gives_direction` — with an exact service the directions of the model do not depend on the
  state.
* `reference_bounds` — the reference in both models, and `not_reference_nonneg` — the sign it can have.
-/

set_option autoImplicit false

namespace ExactPenalty

open Scalar Linear Matrix ExactPenalty.Action

variable {σ : Type} {n : Nat}

/-! ## The two models of the violation -/

namespace Observation

variable {o : Observation ℝ n} {h : Mat ℝ n n} {μ : ℝ} {y : Vector ℝ o.constraints.length}

/-- What is removed from the violation in either model, against what is removed from the sum. -/
theorem predictedReduction_sub_le (l1 : Bool) (d : Vector ℝ n) :
    o.predictedReduction true d - (o.tvL1 - o.violation l1) ≤ o.predictedReduction l1 d := by
  have hle : o.linearizedViolation d l1 ≤ o.linearizedViolation d true := by
    cases l1 with
    | true => exact le_rfl
    | false => exact o.linearizedViolation_false_le_true d
  have hsum : o.predictedReduction true d = o.tvL1 - o.linearizedViolation d true := rfl
  rw [hsum, predictedReduction]
  linarith

/-! ## What a direction of the model removes -/

/-- Linearised constraint values after a direction of the model, combined with any numbers. -/
theorem dotProduct_linearizedVec_directionOf (z : Fin o.constraints.length → ℝ) :
    z ⬝ᵥ o.linearizedVec ((o.steeringModel h).directionOf μ y).get
      = z ⬝ᵥ o.valueVec
        - o.jacobian.toMatrix *ᵥ z ⬝ᵥ h.toMatrix *ᵥ (o.lagrangianGrad μ y).get := by
  rw [linearizedVec, dotProduct_add, ← jacobian_mulVec_dotProduct, directionOf_eq, get_neg,
    Mat.get_mulVec, dotProduct_neg, sub_eq_add_neg]

/-- The violation that a direction of the model removes, in terms of its multipliers. -/
theorem le_predictedReduction (hy : ((o.steeringModel h).program μ).IsMinimizer y)
    (hsymm : h.toMatrix.IsSymm) :
    o.jacobian.toMatrix *ᵥ y.get ⬝ᵥ h.toMatrix *ᵥ (o.lagrangianGrad μ y).get
      ≤ o.predictedReduction true ((o.steeringModel h).directionOf μ y) := by
  have hvalues : y.get ⬝ᵥ o.valueVec ≤ o.tvL1 :=
    dotProduct_valueVec_le_tvL1 (isMultiplier_of_isMinimizer hy)
  have hlinearized := linearizedViolation_eq_of_isMinimizer hy hsymm
  rw [dotProduct_linearizedVec_directionOf] at hlinearized
  show _ ≤ o.tvL1 - o.linearizedViolation _ true
  linarith

theorem lagrangianGrad_zero (o : Observation ℝ n) (y : Vector ℝ o.constraints.length) :
    (o.lagrangianGrad 0 y).get = o.jacobian.toMatrix *ᵥ y.get := by
  rw [get_lagrangianGrad, zero_smul, zero_add]

/-- **The direction of weight zero removes `yᵀ Jᵀ H J y` from the sum of the violations, or more.** -/
theorem quadratic_le_predictedReduction (hy : ((o.steeringModel h).program 0).IsMinimizer y)
    (hh : h.toMatrix.PosSemidef) :
    0 ≤ o.jacobian.toMatrix *ᵥ y.get ⬝ᵥ h.toMatrix *ᵥ o.jacobian.toMatrix *ᵥ y.get ∧
      o.jacobian.toMatrix *ᵥ y.get ⬝ᵥ h.toMatrix *ᵥ o.jacobian.toMatrix *ᵥ y.get
        ≤ o.predictedReduction true ((o.steeringModel h).directionOf 0 y) := by
  refine ⟨hh.dotProduct_mulVec_nonneg _, ?_⟩
  have hle := le_predictedReduction hy (Mat.isSymm_of_posSemidef hh)
  rwa [lagrangianGrad_zero] at hle

/-! ## What steering takes for its reference -/

/-- The directions of the model do not depend on the state, if the service is exact. -/
theorem gives_direction {solve : QpService σ ℝ} (hsolve : solve.ExactOnBoxes)
    (hanswers : solve.AnswersBoxes) (hh : h.toMatrix.PosDef)
    (hy : ((o.steeringModel h).program μ).IsMinimizer y) :
    Gives ((o.steeringModel h).direction solve μ) (.ok ((o.steeringModel h).directionOf μ y)) := by
  intro s
  obtain ⟨z, hz⟩ := hanswers s rfl ⟨y, hy⟩
  have hminimizer : ((o.steeringModel h).program μ).IsMinimizer z := hsolve rfl ⟨y, hy⟩ hz
  rw [SteeringModel.run_direction, hz, ← directionOf_eq_of_isMinimizer hy hminimizer hh]
  rfl

end Observation

section Steer

variable {solve : QpService σ ℝ}

/-- Steering returns something, and tells what any minimiser of the dual program for weight zero leads to. -/
theorem exists_reference (hsolve : solve.ExactOnBoxes) (hanswers : solve.AnswersBoxes)
    (options : SteeringOptions ℝ) (o : Observation ℝ n) {h : Mat ℝ n n} (hh : h.toMatrix.PosDef)
    (μ : ℝ) (s : σ) :
    ∃ out, ((steer solve options o h μ).run s).1 = .ok out ∧
      out.target = options.violationFraction * out.reference ∧
      ∀ y, ((o.steeringModel h).program 0).IsMinimizer y →
        out.reference = o.predictedReduction options.l1Model ((o.steeringModel h).directionOf 0 y) := by
  obtain ⟨out, s', hout⟩ := exists_steer hanswers s
  obtain ⟨z, hz⟩ := o.exists_isMinimizer_program h 0
  have href {y : Vector ℝ o.constraints.length} (hy : ((o.steeringModel h).program 0).IsMinimizer y) :=
    reference_of_steer_eq_ok (Observation.gives_direction hsolve hanswers hh hy) hout
  exact ⟨out, congrArg Prod.fst hout, (href hz).2, fun y hy ↦ (href hy).1⟩

end Steer

/-! ## The sign of the reference -/

/-- **The reference of steering.**  For a positive definite matrix and a service that answers with
minimisers, at every observation and for every weight, steering returns something, and with it:

* as its reference what the direction of weight zero removes in the chosen model, whichever minimiser `y` of
  the dual program that is made from; it is at least `yᵀ Jᵀ H J y`, less the difference between the sum of the
  violations and the violation in the chosen model;
* as its target the fraction of the reference that is asked for.

So if the sum is chosen, or if the largest violation is the sum, then the reference is not negative, and the
target does not lie above it.  In either model the target lies above the reference just where the reference is
negative. -/
theorem reference_bounds {solve : QpService σ ℝ} (hsolve : solve.ExactOnBoxes)
    (hanswers : solve.AnswersBoxes) (options : SteeringOptions ℝ)
    (hfraction : options.violationFraction < 1) (o : Observation ℝ n) {h : Mat ℝ n n}
    (hh : h.toMatrix.PosDef) (μ : ℝ) (s : σ) :
    ∃ out, ((steer solve options o h μ).run s).1 = .ok out ∧
      (∀ y, ((o.steeringModel h).program 0).IsMinimizer y →
        out.reference = o.predictedReduction options.l1Model ((o.steeringModel h).directionOf 0 y) ∧
        o.jacobian.toMatrix *ᵥ y.get ⬝ᵥ h.toMatrix *ᵥ o.jacobian.toMatrix *ᵥ y.get
          - (o.tvL1 - o.violation options.l1Model) ≤ out.reference) ∧
      out.target = options.violationFraction * out.reference ∧
      o.violation options.l1Model - o.tvL1 ≤ out.reference ∧
      (options.l1Model = true ∨ o.tv = o.tvL1 →
        0 ≤ out.reference ∧ out.target ≤ out.reference) ∧
      (out.reference < out.target ↔ out.reference < 0) := by
  obtain ⟨out, hout, htarget, href⟩ := exists_reference hsolve hanswers options o hh μ s
  have hbound (y : Vector ℝ o.constraints.length)
      (hy : ((o.steeringModel h).program 0).IsMinimizer y) :
      o.jacobian.toMatrix *ᵥ y.get ⬝ᵥ h.toMatrix *ᵥ o.jacobian.toMatrix *ᵥ y.get
        - (o.tvL1 - o.violation options.l1Model) ≤ out.reference := by
    have hle := (Observation.quadratic_le_predictedReduction hy hh.posSemidef).2
    rw [href y hy]
    linarith [o.predictedReduction_sub_le options.l1Model ((o.steeringModel h).directionOf 0 y)]
  have hleast : o.violation options.l1Model - o.tvL1 ≤ out.reference := by
    obtain ⟨y, hy⟩ := o.exists_isMinimizer_program h 0
    have hnonneg := (Observation.quadratic_le_predictedReduction hy hh.posSemidef).1
    linarith [hbound y hy]
  have hiff : out.reference < out.target ↔ out.reference < 0 := by
    rw [htarget]
    constructor
    · intro hlt
      nlinarith
    · intro hneg
      nlinarith
  refine ⟨out, hout, fun y hy ↦ ⟨href y hy, hbound y hy⟩, htarget, hleast, fun hmodel ↦ ?_, hiff⟩
  have hnonneg : 0 ≤ out.reference := by
    have hviolation : o.violation options.l1Model = o.tvL1 := by
      rcases hmodel with hl1 | htv
      · rw [hl1]
        rfl
      · cases options.l1Model with
        | true => rfl
        | false => exact htv
    rwa [hviolation, sub_self] at hleast
  exact ⟨hnonneg, not_lt.1 fun hlt ↦ hnonneg.not_gt (hiff.1 hlt)⟩

/-- Three inequalities on the line, all violated by `v`, two of which pull one way and one the other. -/
noncomputable def crowdedObservation (v : ℝ) : Observation ℝ 1 where
  point := Vector.replicate 1 0
  value := 0
  grad := Vector.replicate 1 0
  ineq := [⟨v, Vector.replicate 1 1⟩, ⟨v, Vector.replicate 1 1⟩, ⟨v, Vector.replicate 1 (-1)⟩]
  eq := []

section Crowded

variable {v : ℝ}

theorem directionOf_crowded :
    ((crowdedObservation v).steeringModel (.identity ℝ 1)).directionOf 0
      (Vector.replicate (crowdedObservation v).constraints.length 1) = Vector.replicate 1 (-1) := by
  refine ext_get fun i ↦ ?_
  rw [Observation.directionOf_eq, get_neg, Mat.get_mulVec, Mat.toMatrix_identity, one_mulVec,
    Observation.lagrangianGrad_zero]
  have hjac : ((crowdedObservation v).jacobian.toMatrix *ᵥ
      (Vector.replicate (crowdedObservation v).constraints.length (1 : ℝ)).get) i = 1 + 1 + -1 := by
    simp only [mulVec, dotProduct, Observation.toMatrix_jacobian, get_replicate, mul_one]
    rw [Subsingleton.elim i 0]
    exact Fin.sum_univ_three _
  rw [Pi.neg_apply, hjac, get_replicate]
  norm_num

theorem linearizedVec_crowded (hv : 1 ≤ v) (k : Fin (crowdedObservation v).constraints.length) :
    0 ≤ (crowdedObservation v).linearizedVec (Vector.replicate 1 (-1)).get k := by
  rw [Observation.linearizedVec, Pi.add_apply, Observation.jacobian_transpose_mulVec,
    dotProduct, Fin.sum_univ_one]
  revert k
  refine Fin.forall_fin_succ.2 ⟨?_, Fin.forall_fin_two.2 ⟨?_, ?_⟩⟩
  · show 0 ≤ v + 1 * -1
    linarith
  · show 0 ≤ v + 1 * -1
    linarith
  · show 0 ≤ v + -1 * -1
    linarith

/-- All three multipliers are at their upper bounds. -/
theorem isMinimizer_crowded (hv : 1 ≤ v) :
    (((crowdedObservation v).steeringModel (.identity ℝ 1)).program 0).IsMinimizer
      (Vector.replicate (crowdedObservation v).constraints.length 1) := by
  refine Observation.isMinimizer_of_forall_le Mat.posDef_identity.posSemidef (fun k ↦ ?_) fun z hz ↦ ?_
  · rw [get_replicate]
    split_ifs <;> norm_num
  · rw [directionOf_crowded]
    refine Finset.sum_le_sum fun k _ ↦ mul_le_mul_of_nonneg_right ?_ (linearizedVec_crowded hv k)
    rw [get_replicate]
    exact (hz k).2

/-- The direction takes one from the sum of the violations … -/
theorem predictedReduction_crowded_l1 (hv : 1 ≤ v) :
    (crowdedObservation v).predictedReduction true (Vector.replicate 1 (-1)) = 1 := by
  have hvalue : (crowdedObservation v).violation true = v + v + v := by
    have hmax : max v 0 = v := max_eq_left (by linarith)
    simp [Observation.violation, Observation.tvL1, violationL1, crowdedObservation, hmax]
  have hlinearized : (crowdedObservation v).linearizedViolation (Vector.replicate 1 (-1)) true
      = v + -1 + (v + -1) + (v + 1) := by
    have hless : max (v + -1) 0 = v + -1 := max_eq_left (by linarith)
    have hmore : max (v + 1) 0 = v + 1 := max_eq_left (by linarith)
    simp [Observation.linearizedViolation, violationL1, crowdedObservation, Constraint.linearized,
      dotProduct, hless, hmore]
  rw [Observation.predictedReduction, hvalue, hlinearized]
  ring

/-- … and adds one to the largest of them. -/
theorem predictedReduction_crowded_linf (hv : 1 ≤ v) :
    (crowdedObservation v).predictedReduction false (Vector.replicate 1 (-1)) = -1 := by
  have hvalue : (crowdedObservation v).violation false = v := by
    have hnonneg : 0 ≤ v := by linarith
    simp [Observation.violation, Observation.tv, Observation.tvIneq, Observation.tvEq, ineqViolation,
      eqViolationFrom, crowdedObservation, hnonneg]
  have hlinearized :
      (crowdedObservation v).linearizedViolation (Vector.replicate 1 (-1)) false = v + 1 := by
    have hless : max 0 (v + -1) = v + -1 := max_eq_right (by linarith)
    simp [Observation.linearizedViolation, violationLinf, ineqViolation, eqViolationFrom,
      crowdedObservation, Constraint.linearized, dotProduct, hless]
  rw [Observation.predictedReduction, hvalue, hlinearized]
  ring

end Crowded

/-- If the sum is chosen, steering finds among the three inequalities a reference of one. -/
theorem reference_bounds_crowded :
    QpService.exact.ExactOnBoxes ∧ QpService.exact.AnswersBoxes ∧
    (Options.standard : Options ℝ).steering.violationFraction < 1 ∧
    (Mat.identity ℝ 1).toMatrix.PosDef ∧
    ∃ out, ((steer QpService.exact Options.standard.steering (crowdedObservation 2) (.identity ℝ 1)
        1).run ()).1 = .ok out ∧ out.reference = 1 ∧ out.target ≤ out.reference := by
  have hh : (Mat.identity ℝ 1).toMatrix.PosDef := Mat.posDef_identity
  have hfraction : (Options.standard : Options ℝ).steering.violationFraction < 1 := by
    norm_num [Options.standard]
  obtain ⟨out, hout, hy, -, -, hmodel, -⟩ := reference_bounds QpService.exact_exactOnBoxes
    QpService.exact_answersBoxes Options.standard.steering hfraction (crowdedObservation 2) hh 1 ()
  have href : out.reference = 1 := by
    rw [(hy _ (isMinimizer_crowded one_le_two)).1, directionOf_crowded]
    exact predictedReduction_crowded_l1 one_le_two
  exact ⟨QpService.exact_exactOnBoxes, QpService.exact_answersBoxes, hfraction, hh, out, hout, href,
    (hmodel (.inl rfl)).2⟩

/-- **The reference can be negative**, if violations are measured by the largest of them, and then the target
lies above it. -/
theorem not_reference_nonneg :
    QpService.exact.ExactOnBoxes ∧ QpService.exact.AnswersBoxes ∧
    (Mat.identity ℝ 1).toMatrix.PosDef ∧
    ∃ out, ((steer QpService.exact { Options.standard.steering with l1Model := false }
        (crowdedObservation 2) (.identity ℝ 1) 1).run ()).1 = .ok out ∧
      ¬ 0 ≤ out.reference ∧ out.reference = -1 ∧ out.reference < out.target := by
  have hh : (Mat.identity ℝ 1).toMatrix.PosDef := Mat.posDef_identity
  let options : SteeringOptions ℝ := { Options.standard.steering with l1Model := false }
  have hfraction : options.violationFraction < 1 := by norm_num [options, Options.standard]
  obtain ⟨out, hout, htarget, hy⟩ := exists_reference QpService.exact_exactOnBoxes
    QpService.exact_answersBoxes options (crowdedObservation 2) hh 1 ()
  have href : out.reference = -1 := by
    rw [hy _ (isMinimizer_crowded one_le_two), directionOf_crowded]
    exact predictedReduction_crowded_linf one_le_two
  refine ⟨QpService.exact_exactOnBoxes, QpService.exact_answersBoxes, hh, out, hout, ?_, href, ?_⟩
  · rw [href]
    norm_num
  · rw [htarget, href]
    linarith

end ExactPenalty
