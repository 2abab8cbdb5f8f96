import Mathlib
import ExactPenalty.Proofs.Curvature

/-!
# The secant equation

What a correction is for is the secant equation: the new matrix takes the change `y` of the gradient
to the displacement `s` that caused it.  The expanded form that is computed hides this, but it is a
congruence and a rank-one term,

  `(I − ρ s yᵀ) H (I − ρ y sᵀ) + ρ s sᵀ`,  `ρ = 1 / sᵀy`,

and the factor on the right sends `y` to zero, so that only `ρ (sᵀy) s = s` is left.

A pair that is damped satisfies the equation with another displacement, a mean of `s` and `H y`, and it
is the weight of the mean that has to be looked at: it lies in the unit interval because the curvature
of the pair is below a fraction of `yᵀHy`, and it makes the curvature that fraction.  None of this asks
for a definite matrix, only for a symmetric one.

## What is here

* `Curvature.mulVec_corrected` — a correction satisfies its secant equation.
* `Curvature.toMatrix_corrected_congruence` — the product form of a correction.
* `Curvature.IsWeak.exists_usedStep_eq`, `Curvature.dot_usedStep` — the displacement that enters the
  matrix, and its curvature.
* `accepted_pairs_are_satisfied` — all of it for an update.
-/

set_option autoImplicit false

namespace ExactPenalty

open Linear Matrix

variable {n : Nat}

namespace Curvature

/-! ## One correction -/

section Corrected

variable {h : Mat ℝ n n} (hsymm : h.toMatrix.IsSymm) {s y : Vector ℝ n} (hsty : dot s y ≠ 0)
include hsymm hsty

/-- **The secant equation**: a correction takes the change of the gradient to the displacement. -/
theorem mulVec_corrected :
    (corrected h s (h.mulVec y) (dot s y) (dot y (h.mulVec y))).toMatrix *ᵥ y.get = s.get := by
  rw [toMatrix_corrected hsymm]
  simp only [sub_mulVec, add_mulVec, smul_mulVec, vecMulVec_mulVec, op_smul_eq_smul, Mat.get_mulVec,
    dotProduct_comm (h.toMatrix *ᵥ y.get) y.get, dot_eq y, dot_eq s] at hsty ⊢
  ext i
  simp only [Pi.sub_apply, Pi.add_apply, Pi.smul_apply, smul_eq_mul]
  field_simp
  ring

/-- The product form of a correction. -/
theorem toMatrix_corrected_congruence :
    (corrected h s (h.mulVec y) (dot s y) (dot y (h.mulVec y))).toMatrix
      = (1 - (1 / dot s y) • vecMulVec s.get y.get) * h.toMatrix
          * (1 - (1 / dot s y) • vecMulVec y.get s.get)
        + (1 / dot s y) • vecMulVec s.get s.get := by
  have hleft : y.get ᵥ* h.toMatrix = h.toMatrix *ᵥ y.get := by
    rw [← mulVec_transpose, hsymm.eq]
  rw [toMatrix_corrected hsymm]
  simp only [Matrix.sub_mul, Matrix.mul_sub, Matrix.one_mul, Matrix.mul_one, Matrix.smul_mul,
    Matrix.mul_smul, vecMulVec_mul, mul_vecMulVec, sub_mulVec, smul_mulVec, vecMulVec_mulVec,
    op_smul_eq_smul, hleft, Mat.get_mulVec, dot_eq y, dotProduct_comm (h.toMatrix *ᵥ y.get) y.get]
  ext i j
  simp only [Matrix.sub_apply, Matrix.add_apply, Matrix.smul_apply, vecMulVec_apply, smul_eq_mul,
    Pi.sub_apply, Pi.smul_apply]
  field_simp
  ring

end Corrected

/-! ## The displacement that enters the matrix -/

variable {c : Curvature ℝ n} {s y : Vector ℝ n}

/-- A weak pair enters with a mean of its displacement and the predicted one. -/
theorem IsWeak.exists_usedStep_eq (hweak : c.IsWeak s y) (h1 : c.damping ≤ 1) (hsty : 0 < dot s y) :
    ∃ θ : ℝ, 0 ≤ θ ∧ θ < 1 ∧
      (c.usedStep s y).get = θ • s.get + (1 - θ) • ((c.base s y).toMatrix *ᵥ y.get) := by
  have hgap : (1 - c.damping) * c.predicted s y < c.predicted s y - dot s y := by linarith [hweak.2]
  have hnonneg : 0 ≤ (1 - c.damping) * c.predicted s y :=
    mul_nonneg (sub_nonneg.2 h1) (hweak.predicted_pos hsty).le
  have hpos : 0 < c.predicted s y - dot s y := hnonneg.trans_lt hgap
  refine ⟨(1 - c.damping) * c.predicted s y / (c.predicted s y - dot s y),
    div_nonneg hnonneg hpos.le, (div_lt_one hpos).2 hgap, ?_⟩
  rw [usedStep, if_pos hweak, dampedStep, get_add, get_scale, get_scale, Mat.get_mulVec]

/-- The curvature with which a pair enters is its own or the fraction of the predicted one that is asked
for, whichever is larger. -/
theorem dot_usedStep (h0 : 0 ≤ c.damping) (h1 : c.damping ≤ 1) (hsty : 0 < dot s y) :
    dot (c.usedStep s y) y = max (dot s y) (c.damping * c.predicted s y) := by
  by_cases hweak : c.IsWeak s y
  · rw [hweak.dot_usedStep h1 hsty, max_eq_right hweak.2.le]
  · rw [usedStep, if_neg hweak]
    rw [IsWeak, not_and_or, not_lt, not_lt] at hweak
    rcases hweak with hzero | hstrong
    · rw [le_antisymm hzero h0, zero_mul, max_eq_left hsty.le]
    · rw [max_eq_left hstrong]

/-! ## One update -/

theorem toMatrix_base (c : Curvature ℝ n) (s y : Vector ℝ n) :
    (c.base s y).toMatrix = if c.scaleInitial ∧ c.applied = 0
      then (dot s y / dot y y) • c.matrix.toMatrix else c.matrix.toMatrix := by
  rw [base]
  split_ifs
  · exact Mat.toMatrix_scaled _ _
  · rfl

theorem isSymm_base (hc : c.matrix.toMatrix.IsSymm) : (c.base s y).toMatrix.IsSymm := by
  rw [toMatrix_base]
  split_ifs
  · exact hc.smul _
  · exact hc

end Curvature

/-- **Accepted pairs are satisfied.**  Let `H₀` be the matrix that a pair of safely positive curvature
corrects: the stored one, which the first pair to be accepted rescales if that is asked for.  The new
matrix `H` takes `y` to `s`, unless `sᵀy` is below the fraction `damping` of `yᵀH₀y`; then it takes `y`
to a mean of `s` and `H₀ y`, and the pair counts as damped.  In both cases `yᵀHy` is the larger of the
two, and `H` is the product form of a correction by the displacement `H y`. -/
theorem accepted_pairs_are_satisfied {c : Curvature ℝ n} (hc : c.matrix.toMatrix.IsSymm)
    (h0 : 0 ≤ c.damping) (h1 : c.damping ≤ 1) {s y : Vector ℝ n}
    (hsty : Scalar.epsilon * (norm₂ s * norm₂ y) < dot s y) :
    ∃ (H₀ H : Matrix (Fin n) (Fin n) ℝ) (u : Fin n → ℝ) (ρ : ℝ),
      H₀ = (if c.scaleInitial ∧ c.applied = 0 then (dot s y / dot y y) • c.matrix.toMatrix
        else c.matrix.toMatrix) ∧
      H = (c.update s y).2.matrix.toMatrix ∧ u = H *ᵥ y.get ∧ ρ = 1 / (u ⬝ᵥ y.get) ∧
      (c.damping = 0 ∨ c.damping * (y.get ⬝ᵥ H₀ *ᵥ y.get) ≤ dot s y →
        (c.update s y).1 = .applied ∧ u = s.get) ∧
      (¬ (c.damping = 0 ∨ c.damping * (y.get ⬝ᵥ H₀ *ᵥ y.get) ≤ dot s y) →
        (c.update s y).1 = .damped ∧
        ∃ θ : ℝ, 0 ≤ θ ∧ θ < 1 ∧ u = θ • s.get + (1 - θ) • (H₀ *ᵥ y.get)) ∧
      y.get ⬝ᵥ u = max (dot s y) (c.damping * (y.get ⬝ᵥ H₀ *ᵥ y.get)) ∧
      H = (1 - ρ • vecMulVec u y.get) * H₀ * (1 - ρ • vecMulVec y.get u) + ρ • vecMulVec u u := by
  have hpos : 0 < dot s y :=
    (mul_nonneg Scalar.epsilon_real_pos.le (mul_nonneg (norm₂_nonneg s) (norm₂_nonneg y))).trans_lt hsty
  have hused : 0 < dot (c.usedStep s y) y := c.dot_usedStep_pos h1 hpos
  have hsymm : (c.base s y).toMatrix.IsSymm := Curvature.isSymm_base hc
  have hpredicted : c.predicted s y = y.get ⬝ᵥ (c.base s y).toMatrix *ᵥ y.get := by
    rw [Curvature.predicted, dot_eq, Mat.get_mulVec]
  have hweak : c.IsWeak s y
      ↔ ¬ (c.damping = 0 ∨ c.damping * (y.get ⬝ᵥ (c.base s y).toMatrix *ᵥ y.get) ≤ dot s y) := by
    rw [Curvature.IsWeak, hpredicted, not_or, not_le, h0.lt_iff_ne']
  have hsecant : (c.next s y).toMatrix *ᵥ y.get = (c.usedStep s y).get :=
    Curvature.mulVec_corrected hsymm hused.ne'
  refine ⟨(c.base s y).toMatrix, (c.next s y).toMatrix, (c.usedStep s y).get, 1 / dot (c.usedStep s y) y,
    c.toMatrix_base s y, ?_, hsecant.symm, by rw [dot_eq], fun hstrong ↦ ?_, fun hnot ↦ ?_, ?_, ?_⟩
  · rw [Curvature.update_of_lt hsty]
  · have hnot : ¬ c.IsWeak s y := fun h ↦ hweak.1 h hstrong
    rw [Curvature.update_of_lt hsty, Curvature.usedStep, if_neg hnot, if_neg hnot]
    exact ⟨rfl, rfl⟩
  · rw [Curvature.update_of_lt hsty, if_pos (hweak.2 hnot)]
    exact ⟨rfl, (hweak.2 hnot).exists_usedStep_eq h1 hpos⟩
  · rw [dotProduct_comm, ← dot_eq, Curvature.dot_usedStep h0 h1 hpos, hpredicted]
  · exact Curvature.toMatrix_corrected_congruence hsymm hused.ne'

/-- A fresh matrix that is asked for a fifth of the predicted curvature. -/
noncomputable def freshFifth : Curvature ℝ 2 := .initial 2 { scaleInitial := false, damping := 1 / 5 }

/-- The pair of `(1, 0)` and `(3, 4)` has the curvature 3 where 25 is predicted, and enters with 5. -/
theorem accepted_pairs_are_satisfied_freshFifth :
    freshFifth.matrix.toMatrix.IsSymm ∧ 0 ≤ freshFifth.damping ∧ freshFifth.damping ≤ 1 ∧
    Scalar.epsilon * (norm₂ (#v[1, 0] : Vector ℝ 2) * norm₂ (#v[3, 4] : Vector ℝ 2))
      < dot #v[1, 0] #v[3, 4] ∧
    (freshFifth.update #v[1, 0] #v[3, 4]).1 = .damped ∧
    (#v[3, 4] : Vector ℝ 2).get ⬝ᵥ
      (freshFifth.update #v[1, 0] #v[3, 4]).2.matrix.toMatrix *ᵥ (#v[3, 4] : Vector ℝ 2).get = 5 := by
  have hdamping : freshFifth.damping = 1 / 5 := by
    norm_num [freshFifth, Curvature.initial]
  have hdamping0 : 0 ≤ freshFifth.damping := by
    rw [hdamping]
    norm_num
  have hdamping1 : freshFifth.damping ≤ 1 := by
    rw [hdamping]
    norm_num
  have hmatrix : freshFifth.matrix.toMatrix = 1 := Mat.toMatrix_identity
  have hsymm : freshFifth.matrix.toMatrix.IsSymm := hmatrix ▸ isSymm_one
  have hsty : dot (#v[1, 0] : Vector ℝ 2) #v[3, 4] = 3 := by
    norm_num [get_eq, Fin.sum_univ_two, dotProduct]
  have hyy : (#v[3, 4] : Vector ℝ 2).get ⬝ᵥ (#v[3, 4] : Vector ℝ 2).get = 25 := by
    norm_num [get_eq, Fin.sum_univ_two, dotProduct]
  have hss : (#v[1, 0] : Vector ℝ 2).get ⬝ᵥ (#v[1, 0] : Vector ℝ 2).get = 1 := by
    norm_num [get_eq, Fin.sum_univ_two, dotProduct]
  have hsafe : Scalar.epsilon * (norm₂ (#v[1, 0] : Vector ℝ 2) * norm₂ (#v[3, 4] : Vector ℝ 2))
      < dot #v[1, 0] #v[3, 4] := by
    rw [norm₂_eq, norm₂_eq, hss, hyy, hsty, show (25 : ℝ) = 5 ^ 2 by norm_num, Real.sqrt_sq (by norm_num)]
    norm_num [Scalar.epsilon]
  obtain ⟨H₀, H, u, ρ, hH₀, rfl, rfl, -, -, hdamped, hcurvature, -⟩ :=
    accepted_pairs_are_satisfied hsymm hdamping0 hdamping1 hsafe
  have hbase : H₀ = 1 := hH₀.trans ((if_neg fun h ↦ nomatch h.1).trans hmatrix)
  rw [hbase, one_mulVec, hyy, hsty, hdamping] at hdamped hcurvature
  refine ⟨hsymm, hdamping0, hdamping1, hsafe, (hdamped (by norm_num)).1, ?_⟩
  rw [hcurvature]
  norm_num

end ExactPenalty
