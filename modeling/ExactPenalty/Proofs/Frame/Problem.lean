import Mathlib
import ExactPenalty.Iterate
import ExactPenalty.Proofs.Evaluation
import ExactPenalty.Proofs.Frame
import ExactPenalty.Steering

/-!
# Problems in another frame

What a problem answers in the new frame at a point is what it answers in the old one at the same point,
in new coordinates and units: gradients are rotated, and the objective and its gradient are multiplied
by the unit.  The constraints have a unit of their own, which stays.

With the penalty parameter divided by the unit, the penalty function does not depend on the frame
(`Observation.penaltyAt_inFrame`), and its gradient is rotated (`Observation.penaltyGradAt_inFrame`).
Violations do not depend on it either, nor does the screen let anything else through
(`Evaluation.toObservation?_inFrame`).
-/

set_option autoImplicit false

namespace ExactPenalty

open Linear Matrix

variable {n : Nat} (F : Frame n)

/-! ## Answers -/

noncomputable def Constraint.inFrame (c : Constraint ℝ n) : Constraint ℝ n where
  value := c.value
  grad := F.vec c.grad

noncomputable def Observation.inFrame (o : Observation ℝ n) : Observation ℝ n where
  point := F.point o.point
  value := F.unit * o.value
  grad := scale (F.vec o.grad) F.unit
  ineq := o.ineq.map (·.inFrame F)
  eq := o.eq.map (·.inFrame F)

noncomputable def Iterate.inFrame (it : Iterate ℝ n) : Iterate ℝ n :=
  (it.toObservation.inFrame F).weighed (it.mu / F.unit)

/-- Gradients of the wrong length are not rotated. -/
noncomputable def Jacobian.inFrame (J : Jacobian ℝ) : Jacobian ℝ :=
  if h : J.rows = n then ⟨n, J.columns.map fun g ↦ F.vec (g.cast h)⟩ else J

@[inherit_doc Jacobian.inFrame]
noncomputable def Evaluation.inFrame (e : Evaluation ℝ) : Evaluation ℝ where
  value := F.unit * e.value
  grad :=
    if h : e.grad.size = n then (scale (F.vec ⟨e.grad, h⟩) F.unit).toArray
    else e.grad.map (F.unit * ·)
  ineq := e.ineq
  ineqGrad := e.ineqGrad.inFrame F
  eq := e.eq
  eqGrad := e.eqGrad.inFrame F

theorem Jacobian.constraints?_inFrame (J : Jacobian ℝ) (values : List ℝ) :
    (J.inFrame F).constraints? n values
      = (J.constraints? n values).map (·.map (·.inFrame F)) := by
  obtain ⟨rows, columns⟩ := J
  by_cases hrows : rows = n
  · subst hrows
    rw [inFrame, dif_pos rfl, constraints?, dif_pos rfl, constraints?, dif_pos rfl, List.length_map]
    split_ifs
    · rw [Option.map_some, List.map_zipWith, List.zipWith_map_right]
      rfl
    · rfl
  · have hkept : (⟨rows, columns⟩ : Jacobian ℝ).inFrame F = ⟨rows, columns⟩ := dif_neg hrows
    rw [hkept, constraints?, dif_neg hrows]
    rfl

/-- **The screen lets the same answers through.** -/
theorem Evaluation.toObservation?_inFrame (e : Evaluation ℝ) (x : Vector ℝ n) :
    (e.inFrame F).toObservation? (F.point x) = (e.toObservation? x).map (·.inFrame F) := by
  have hineq : (e.inFrame F).ineqGrad.constraints? n (e.inFrame F).ineq
      = (e.ineqGrad.constraints? n e.ineq).map (·.map (·.inFrame F)) :=
    e.ineqGrad.constraints?_inFrame F e.ineq
  have heq : (e.inFrame F).eqGrad.constraints? n (e.inFrame F).eq
      = (e.eqGrad.constraints? n e.eq).map (·.map (·.inFrame F)) :=
    e.eqGrad.constraints?_inFrame F e.eq
  rw [toObservation?, toObservation?, hineq, heq]
  by_cases hsize : e.grad.size = n
  · have hgrad : (e.inFrame F).grad = (scale (F.vec ⟨e.grad, hsize⟩) F.unit).toArray := dif_pos hsize
    rw [dif_pos (by rw [hgrad, Vector.size_toArray]), dif_pos hsize]
    simp only [hgrad]
    cases e.ineqGrad.constraints? n e.ineq with
    | none => rfl
    | some ineq => cases e.eqGrad.constraints? n e.eq <;> rfl
  · have hgrad : (e.inFrame F).grad = e.grad.map (F.unit * ·) := dif_neg hsize
    rw [dif_neg (by rwa [hgrad, Array.size_map]), dif_neg hsize]
    rfl

/-! ## Observations -/

namespace Observation

variable (o : Observation ℝ n)

@[simp] theorem constraints_inFrame : (o.inFrame F).constraints = o.constraints.map (·.inFrame F) :=
  List.map_append.symm

@[simp] theorem shape_inFrame : (o.inFrame F).shape = o.shape := by
  rw [shape, shape, inFrame, List.length_map, List.length_map]

@[simp] theorem isConstrained_inFrame : (o.inFrame F).isConstrained = o.isConstrained := by
  rw [isConstrained, isConstrained, constraints_inFrame, List.isEmpty_map]

@[simp] theorem isFinite_inFrame : (o.inFrame F).isFinite = o.isFinite := by
  simp [isFinite, Constraint.isFinite, inFrame, Function.comp_def]

theorem map_value_inFrame (cs : List (Constraint ℝ n)) :
    (cs.map (·.inFrame F)).map (·.value) = cs.map (·.value) := by
  rw [List.map_map]
  rfl

@[simp] theorem tvL1_inFrame : (o.inFrame F).tvL1 = o.tvL1 := by
  rw [tvL1, tvL1, inFrame, map_value_inFrame, map_value_inFrame]

@[simp] theorem tvIneq_inFrame : (o.inFrame F).tvIneq = o.tvIneq := by
  rw [tvIneq, tvIneq, inFrame, map_value_inFrame]

@[simp] theorem tvEq_inFrame : (o.inFrame F).tvEq = o.tvEq := by
  rw [tvEq, tvEq, inFrame, map_value_inFrame]

@[simp] theorem tv_inFrame : (o.inFrame F).tv = o.tv := by
  rw [tv, tv, tvIneq_inFrame, tvEq_inFrame]

@[simp] theorem violation_inFrame (l1 : Bool) : (o.inFrame F).violation l1 = o.violation l1 := by
  rw [violation, violation, tvL1_inFrame, tv_inFrame]

@[simp] theorem isFeasible_inFrame (ineqTol eqTol : Extended ℝ) :
    (o.inFrame F).isFeasible ineqTol eqTol = o.isFeasible ineqTol eqTol := by
  rw [isFeasible, isFeasible, tvIneq_inFrame, tvEq_inFrame]

@[simp] theorem isEngaged_inFrame (margin : Extended ℝ) :
    isEngaged (o.inFrame F) margin = isEngaged o margin := by
  have hnone : (o.inFrame F).eq.isEmpty = o.eq.isEmpty := List.isEmpty_map
  have hany (δ : ℝ) : ((o.inFrame F).ineq.any fun c ↦ decide (-δ ≤ c.value))
      = o.ineq.any fun c ↦ decide (-δ ≤ c.value) := List.any_map
  rw [isEngaged.eq_def, isEngaged.eq_def, isConstrained_inFrame]
  simp only [hnone, hany]

/-- The linear models of the constraints do not depend on the frame. -/
theorem map_linearized_inFrame (cs : List (Constraint ℝ n)) (d : Vector ℝ n) :
    (cs.map (·.inFrame F)).map (·.linearized (F.vec d)) = cs.map (·.linearized d) := by
  rw [List.map_map]
  refine List.map_congr_left fun c _ ↦ ?_
  exact congrArg (c.value + ·) (F.plainDot_vec c.grad d)

@[simp] theorem linearizedViolation_inFrame (d : Vector ℝ n) (l1 : Bool) :
    (o.inFrame F).linearizedViolation (F.vec d) l1 = o.linearizedViolation d l1 := by
  rw [linearizedViolation, linearizedViolation, inFrame, map_linearized_inFrame,
    map_linearized_inFrame]

@[simp] theorem predictedReduction_inFrame (d : Vector ℝ n) (l1 : Bool) :
    (o.inFrame F).predictedReduction l1 (F.vec d) = o.predictedReduction l1 d := by
  rw [predictedReduction, predictedReduction, violation_inFrame, linearizedViolation_inFrame]

theorem foldl_inFrame {f : Vector ℝ n → Constraint ℝ n → Vector ℝ n}
    (hf : ∀ v c, f (F.vec v) (c.inFrame F) = F.vec (f v c)) (cs : List (Constraint ℝ n))
    (v : Vector ℝ n) : (cs.map (·.inFrame F)).foldl f (F.vec v) = F.vec (cs.foldl f v) := by
  rw [List.foldl_map]
  exact List.foldl_hom F.vec hf

@[simp] theorem violationGrad_inFrame : (o.inFrame F).violationGrad = F.vec o.violationGrad := by
  rw [violationGrad, violationGrad, ← foldl_inFrame F (fun v c ↦ ?_), ← foldl_inFrame F (fun v c ↦ ?_),
    F.vec_replicate_zero]
  · rfl
  · show (if 0 < c.value then _ else _) = _
    split_ifs
    · exact (F.vec_add v c.grad).symm
    · rfl
  · show (if 0 < c.value then _ else if c.value < 0 then _ else _) = _
    split_ifs
    · exact (F.vec_add v c.grad).symm
    · exact (F.vec_sub v c.grad).symm
    · rfl

/-- **The penalty function does not depend on the frame.** -/
@[simp] theorem penaltyAt_inFrame (μ : ℝ) : (o.inFrame F).penaltyAt (μ / F.unit) = o.penaltyAt μ := by
  have hunit := F.unit_pos.ne'
  rw [penaltyAt, penaltyAt, tvL1_inFrame, inFrame]
  field_simp

/-- **Its gradient is rotated.** -/
@[simp] theorem penaltyGradAt_inFrame (μ : ℝ) :
    (o.inFrame F).penaltyGradAt (μ / F.unit) = F.vec (o.penaltyGradAt μ) := by
  rw [penaltyGradAt, penaltyGradAt, violationGrad_inFrame, F.vec_add, F.vec_scale,
    ← F.scale_scale_unit (F.vec o.grad) μ]
  rfl

end Observation

/-! ## Iterates -/

namespace Iterate

variable (it : Iterate ℝ n)

@[simp] theorem toObservation_inFrame :
    (it.inFrame F).toObservation = it.toObservation.inFrame F := rfl

@[simp] theorem penalty_inFrame : (it.inFrame F).penalty = it.penalty :=
  it.toObservation.penaltyAt_inFrame F it.mu

@[simp] theorem penaltyGrad_inFrame : (it.inFrame F).penaltyGrad = F.vec it.penaltyGrad :=
  it.toObservation.penaltyGradAt_inFrame F it.mu

end Iterate

end ExactPenalty
