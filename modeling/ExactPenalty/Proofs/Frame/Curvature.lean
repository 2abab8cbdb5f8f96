import Mathlib
import ExactPenalty.Proofs.Conditioning
import ExactPenalty.Proofs.Curvature
import ExactPenalty.Proofs.Frame

/-!
# Curvature in another frame

The inverse-curvature matrix is a metric on gradients, so it changes with the coordinates and not with
the unit of the objective.  A correction is made of inner products and of rank-one terms, and so it
commutes with the change of frame (`Curvature.update_inFrame`).

Capping the condition number commutes with it because it does not depend on the decomposition that the
eigenvalue method happens to find.  That takes an exact method, unless the coordinates stay
(`Frame.mat_condition`).
-/

set_option autoImplicit false

namespace ExactPenalty

open Linear Matrix

variable {n : Nat} (F : Frame n)

/-! ## Corrections -/

namespace Frame

theorem conjugate_vecMulVec (u v : Fin n → ℝ) :
    F.rotation * vecMulVec u v * F.rotationᵀ
      = vecMulVec (F.rotation *ᵥ u) (F.rotation *ᵥ v) := by
  rw [mul_vecMulVec, vecMulVec_mul, vecMul_transpose]

theorem mat_corrected (h : Mat ℝ n n) (s hy : Vector ℝ n) (sty yhy : ℝ) :
    Curvature.corrected (F.mat h) (F.vec s) (F.vec hy) sty yhy
      = F.mat (Curvature.corrected h s hy sty yhy) := by
  obtain ⟨a, ha, hentries⟩ := Curvature.exists_corrected_eq h s hy sty yhy
  obtain ⟨b, hb, hentries'⟩ := Curvature.exists_corrected_eq (F.mat h) (F.vec s) (F.vec hy) sty yhy
  have hba : b = F.mat a := by
    refine Mat.toMatrix_injective ?_
    rw [hentries', toMatrix_mat, toMatrix_mat, hentries, get_vec, get_vec]
    simp only [Matrix.mul_add, Matrix.add_mul, Matrix.mul_sub, Matrix.sub_mul, Matrix.mul_smul,
      Matrix.smul_mul, conjugate_vecMulVec]
  rw [ha, hb, hba, F.mat_symmetrized]

theorem vec_dampedStep (damping : ℝ) (s hy : Vector ℝ n) (sty yhy : ℝ) :
    Curvature.dampedStep damping (F.vec s) (F.vec hy) sty yhy
      = F.vec (Curvature.dampedStep damping s hy sty yhy) := by
  rw [Curvature.dampedStep, Curvature.dampedStep, F.vec_add, F.vec_scale, F.vec_scale]

end Frame

namespace Curvature

variable (c : Curvature ℝ n) (s y : Vector ℝ n)

noncomputable def inFrame : Curvature ℝ n := { c with matrix := F.mat c.matrix }

theorem inFrame_initial (o : CurvatureOptions ℝ) : (initial n o).inFrame F = initial n o :=
  congrArg (fun h ↦ { initial n o with matrix := h }) F.mat_identity

theorem base_inFrame : (c.inFrame F).base (F.vec s) (F.vec y) = F.mat (c.base s y) := by
  rw [base, base, F.dot_vec, F.dot_vec]
  show (if c.scaleInitial = true ∧ c.applied = 0 then (F.mat c.matrix).scaled _ else F.mat c.matrix)
    = _
  split_ifs
  · exact (F.mat_scaled c.matrix _).symm
  · rfl

theorem predicted_inFrame : (c.inFrame F).predicted (F.vec s) (F.vec y) = c.predicted s y := by
  rw [predicted, predicted, base_inFrame, F.mulVec_mat, F.dot_vec]

theorem isWeak_inFrame : (c.inFrame F).IsWeak (F.vec s) (F.vec y) ↔ c.IsWeak s y := by
  rw [IsWeak, IsWeak, predicted_inFrame, F.dot_vec]
  rfl

theorem usedStep_inFrame : (c.inFrame F).usedStep (F.vec s) (F.vec y) = F.vec (c.usedStep s y) := by
  rw [usedStep, usedStep, predicted_inFrame, base_inFrame, F.mulVec_mat, F.dot_vec]
  by_cases hweak : c.IsWeak s y
  · rw [if_pos hweak, if_pos ((c.isWeak_inFrame F s y).2 hweak)]
    exact F.vec_dampedStep _ _ _ _ _
  · rw [if_neg hweak, if_neg fun h ↦ hweak ((c.isWeak_inFrame F s y).1 h)]

theorem next_inFrame : (c.inFrame F).next (F.vec s) (F.vec y) = F.mat (c.next s y) := by
  rw [next, next, usedStep_inFrame, predicted_inFrame, base_inFrame, F.mulVec_mat, F.dot_vec,
    F.mat_corrected]

/-- **Updates commute with a change of frame**, and what becomes of the pair does not depend on it. -/
theorem update_inFrame : (c.inFrame F).update (F.vec s) (F.vec y)
    = ((c.update s y).1, (c.update s y).2.inFrame F) := by
  rcases le_or_gt (dot s y) (Scalar.epsilon * (norm₂ s * norm₂ y)) with hsty | hsty
  · have hsty' : dot (F.vec s) (F.vec y) ≤ Scalar.epsilon * (norm₂ (F.vec s) * norm₂ (F.vec y)) := by
      rwa [F.dot_vec, F.norm₂_vec, F.norm₂_vec]
    rw [update_of_le hsty, update_of_le hsty', F.dot_vec]
    rfl
  · have hsty' : Scalar.epsilon * (norm₂ (F.vec s) * norm₂ (F.vec y)) < dot (F.vec s) (F.vec y) := by
      rwa [F.dot_vec, F.norm₂_vec, F.norm₂_vec]
    classical
    rw [update_of_lt hsty, update_of_lt hsty', next_inFrame, if_congr (c.isWeak_inFrame F s y) rfl rfl]
    rfl

end Curvature

/-! ## Conditioning -/

namespace Frame

theorem mat_of_rotation_eq_one (hF : F.rotation = 1) (h : Mat ℝ n n) : F.mat h = h := by
  refine Mat.toMatrix_injective ?_
  rw [toMatrix_mat, hF, transpose_one, Matrix.one_mul, Matrix.mul_one]

/-- A decomposition in the new coordinates. -/
theorem decomposes {e : Eigen ℝ n} {a : Mat ℝ n n} (h : e.Decomposes a) :
    ({ e with vectors := F.columns e.vectors } : Eigen ℝ n).Decomposes (F.mat a) where
  orthonormal := by
    rw [toMatrix_columns, transpose_mul, Matrix.mul_assoc, ← Matrix.mul_assoc F.rotationᵀ,
      F.transpose_mul_rotation, Matrix.one_mul, h.orthonormal]
  rebuilt := by
    rw [toMatrix_columns, toMatrix_mat, ← h.rebuilt, transpose_mul]
    simp only [Matrix.mul_assoc]

theorem rebuild_columns (e : Eigen ℝ n) :
    ({ e with vectors := F.columns e.vectors } : Eigen ℝ n).rebuild = F.mat e.rebuild := by
  refine Mat.toMatrix_injective ?_
  rw [Eigen.toMatrix_rebuild, toMatrix_mat, Eigen.toMatrix_rebuild, toMatrix_columns, transpose_mul]
  simp only [Matrix.mul_assoc]

/-- **Conditioning commutes with a change of frame.** -/
theorem mat_condition {eigen : EigenMethod ℝ} (heigen : F.rotation = 1 ∨ eigen.IsExact)
    (o : ConditioningOptions ℝ) (h : Mat ℝ n n) :
    (condition eigen o (F.mat h)).matrix = F.mat (condition eigen o h).matrix := by
  rcases heigen with hF | hexact
  · rw [F.mat_of_rotation_eq_one hF, F.mat_of_rotation_eq_one hF]
  -- the decomposition of the new matrix need not be that of the old one in new coordinates
  have hold : (spectrum eigen h).Decomposes h.symmetrized := hexact _ (Mat.isSymm_symmetrized h)
  have hnew : (spectrum eigen (F.mat h)).Decomposes (F.mat h.symmetrized) := by
    rw [F.mat_symmetrized]
    exact hexact _ (Mat.isSymm_symmetrized _)
  have hvalues (x : ℝ) : x ∈ (spectrum eigen h).values.toList
      ↔ x ∈ (spectrum eigen (F.mat h)).values.toList := (F.decomposes hold).mem_values_iff hnew
  obtain ⟨hkept, hkept'⟩ | ⟨f, hmapped, hmapped'⟩ := condition_together o hvalues
  · rw [hkept, hkept']
  · rw [hmapped, hmapped', F.mat_symmetrized, ← F.rebuild_columns,
      ← (F.decomposes hold).rebuild_map hnew f]

end Frame

end ExactPenalty
