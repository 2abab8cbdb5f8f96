import Mathlib
import ExactPenalty.Curvature
import ExactPenalty.Proofs.Linear

/-!
# The curvature matrix stays positive definite

The correction is written in its expanded form, but it is a congruence of the corrected matrix and a
rank-one term:

  `(I − ρ s yᵀ) H (I − ρ y sᵀ) + ρ s sᵀ`,  `ρ = 1 / sᵀy`,

so its quadratic form at `x` is that of `H` at `x − ρ (sᵀx) y`, and `ρ (sᵀx)²` more.  That is
positive for every `x` other than zero as soon as `H` is and `sᵀy` is; and the damped step has
`sᵀy` equal to a fraction of `yᵀHy`.

## What is here

* `Curvature.update_of_le`, `Curvature.update_of_lt` — an update in exact arithmetic: the pair is
  skipped, or the matrix `base` is corrected by `usedStep`.
* `posDef_corrected`, `Curvature.posDef_update` — one correction, one update.
* `Curvature.IsDefinite.after` — any number of updates, whatever became of each.
-/

set_option autoImplicit false

namespace ExactPenalty

open Linear Matrix Scalar

variable {n : Nat}

namespace Curvature

/-! ## One correction -/

/-- The correction as a matrix, before it is averaged with its transpose. -/
theorem exists_corrected_eq (h : Mat ℝ n n) (s hy : Vector ℝ n) (sty yhy : ℝ) :
    ∃ a : Mat ℝ n n, corrected h s hy sty yhy = a.symmetrized ∧
      a.toMatrix = h.toMatrix + ((sty + yhy) * (1 / sty) * (1 / sty)) • vecMulVec s.get s.get
        - (1 / sty) • (vecMulVec hy.get s.get + vecMulVec s.get hy.get) := by
  refine ⟨_, rfl, ?_⟩
  rw [Mat.toMatrix_ofFn]
  ext i j
  show (h.get i).get j + ((sty + yhy) * (1 / sty) * (1 / sty) * s.get i * s.get j
      - 1 / sty * (hy.get i * s.get j + s.get i * hy.get j))
    = (h.get i).get j + (sty + yhy) * (1 / sty) * (1 / sty) * (s.get i * s.get j)
      - 1 / sty * (hy.get i * s.get j + s.get i * hy.get j)
  ring

theorem toMatrix_corrected {h : Mat ℝ n n} (hsymm : h.toMatrix.IsSymm) (s hy : Vector ℝ n)
    (sty yhy : ℝ) :
    (corrected h s hy sty yhy).toMatrix
      = h.toMatrix + ((sty + yhy) * (1 / sty) * (1 / sty)) • vecMulVec s.get s.get
        - (1 / sty) • (vecMulVec hy.get s.get + vecMulVec s.get hy.get) := by
  obtain ⟨a, ha, hentries⟩ := exists_corrected_eq h s hy sty yhy
  rw [ha, Mat.toMatrix_symmetrized, hentries]
  rw [hentries, IsSymm, transpose_sub, transpose_add, transpose_smul, transpose_smul, transpose_add,
    transpose_vecMulVec, transpose_vecMulVec, transpose_vecMulVec, hsymm.eq,
    add_comm (vecMulVec s.get hy.get)]

/-- The quadratic form of a corrected matrix. -/
theorem quadratic_corrected {h : Mat ℝ n n} (hsymm : h.toMatrix.IsSymm) (s y : Vector ℝ n)
    (hsty : dot s y ≠ 0) (x : Fin n → ℝ) :
    x ⬝ᵥ (corrected h s (h.mulVec y) (dot s y) (dot y (h.mulVec y))).toMatrix *ᵥ x
      = (x - ((s.get ⬝ᵥ x) / dot s y) • y.get) ⬝ᵥ
          h.toMatrix *ᵥ (x - ((s.get ⬝ᵥ x) / dot s y) • y.get)
        + (s.get ⬝ᵥ x) ^ 2 / dot s y := by
  have hswap : y.get ⬝ᵥ h.toMatrix *ᵥ x = x ⬝ᵥ h.toMatrix *ᵥ y.get :=
    Mat.dotProduct_mulVec_comm hsymm _ _
  rw [toMatrix_corrected hsymm]
  simp only [sub_mulVec, add_mulVec, smul_mulVec, vecMulVec_mulVec, dotProduct_sub, dotProduct_add,
    dotProduct_smul, sub_dotProduct, smul_dotProduct, mulVec_sub, mulVec_smul, op_smul_eq_smul,
    smul_eq_mul, hswap, Mat.get_mulVec, dot_eq y]
  rw [dotProduct_comm x s.get, dotProduct_comm (h.toMatrix *ᵥ y.get) x]
  field_simp
  ring

/-- **A correction keeps a matrix positive definite**, if the pair has positive curvature. -/
theorem posDef_corrected {h : Mat ℝ n n} (hh : h.toMatrix.PosDef) {s y : Vector ℝ n}
    (hsty : 0 < dot s y) :
    (corrected h s (h.mulVec y) (dot s y) (dot y (h.mulVec y))).toMatrix.PosDef := by
  have hsymm : h.toMatrix.IsSymm := Mat.isSymm_of_posSemidef hh.posSemidef
  refine .of_dotProduct_mulVec_pos (isHermitian_iff_isSymm.2 (Mat.isSymm_symmetrized _))
    fun x hx ↦ ?_
  rw [star_trivial, quadratic_corrected hsymm s y hsty.ne']
  let z := x - ((s.get ⬝ᵥ x) / dot s y) • y.get
  have hz : 0 ≤ z ⬝ᵥ h.toMatrix *ᵥ z := hh.posSemidef.dotProduct_mulVec_nonneg z
  by_cases hsx : s.get ⬝ᵥ x = 0
  · have hzx : z = x := by rw [show z = x - _ from rfl, hsx, zero_div, zero_smul, sub_zero]
    have hpos : 0 < z ⬝ᵥ h.toMatrix *ᵥ z := hzx.symm ▸ hh.dotProduct_mulVec_pos hx
    have hterm : 0 ≤ (s.get ⬝ᵥ x) ^ 2 / dot s y := by positivity
    exact add_pos_of_pos_of_nonneg hpos hterm
  · have hterm : 0 < (s.get ⬝ᵥ x) ^ 2 / dot s y := by positivity
    exact add_pos_of_nonneg_of_pos hz hterm

/-! ## One update -/

/-- The curvature that the matrix to be corrected predicts along a change of the gradient. -/
noncomputable def predicted (c : Curvature ℝ n) (s y : Vector ℝ n) : ℝ :=
  dot y ((c.base s y).mulVec y)

/-- The curvature of the pair is below the fraction of the predicted one that is asked for. -/
def IsWeak (c : Curvature ℝ n) (s y : Vector ℝ n) : Prop :=
  0 < c.damping ∧ dot s y < c.damping * c.predicted s y

open Classical in
/-- The displacement that enters the matrix. -/
noncomputable def usedStep (c : Curvature ℝ n) (s y : Vector ℝ n) : Vector ℝ n :=
  if c.IsWeak s y then
    dampedStep c.damping s ((c.base s y).mulVec y) (dot s y) (c.predicted s y)
  else s

/-- The matrix after a pair that is not skipped. -/
noncomputable def next (c : Curvature ℝ n) (s y : Vector ℝ n) : Mat ℝ n n :=
  corrected (c.base s y) (c.usedStep s y) ((c.base s y).mulVec y) (dot (c.usedStep s y) y)
    (c.predicted s y)

variable {c : Curvature ℝ n} {s y : Vector ℝ n}

/-- A pair whose curvature is not safely positive is skipped. -/
theorem update_of_le (hsty : dot s y ≤ Scalar.epsilon * (norm₂ s * norm₂ y)) :
    c.update s y = (.skippedCurvature (dot s y), c.skip) := by
  rw [update, allFinite_real, allFinite_real]
  exact if_neg hsty.not_gt

open Classical in
/-- A pair of safely positive curvature is used. -/
theorem update_of_lt (hsty : Scalar.epsilon * (norm₂ s * norm₂ y) < dot s y) :
    c.update s y = (if c.IsWeak s y then .damped else .applied,
      { c with matrix := c.next s y, applied := c.applied + 1 }) := by
  rw [update, allFinite_real, allFinite_real]
  simp only [Bool.and_self, if_true, if_pos hsty, Mat.isFinite_real]
  by_cases hweak : c.IsWeak s y
  · have hd : decide (0 < c.damping ∧ dot s y < c.damping * dot y ((c.base s y).mulVec y)) = true :=
      decide_eq_true hweak
    simp only [hd, if_true, if_pos hweak, next, usedStep]
    rfl
  · have hd : decide (0 < c.damping ∧ dot s y < c.damping * dot y ((c.base s y).mulVec y)) = false :=
      decide_eq_false hweak
    simp only [hd, if_neg hweak, next, usedStep]
    rfl

theorem matrix_update (c : Curvature ℝ n) (s y : Vector ℝ n) :
    (c.update s y).2.matrix = c.matrix ∨
      0 < dot s y ∧ (c.update s y).2.matrix = c.next s y := by
  rcases le_or_gt (dot s y) (Scalar.epsilon * (norm₂ s * norm₂ y)) with hle | hlt
  · exact .inl (by rw [update_of_le hle, skip])
  · have hnonneg : 0 ≤ Scalar.epsilon * (norm₂ s * norm₂ y) :=
      mul_nonneg epsilon_real_pos.le (mul_nonneg (norm₂_nonneg s) (norm₂_nonneg y))
    exact .inr ⟨hnonneg.trans_lt hlt, by rw [update_of_lt hlt]⟩

@[simp] theorem damping_update (c : Curvature ℝ n) (s y : Vector ℝ n) :
    (c.update s y).2.damping = c.damping := by
  rcases le_or_gt (dot s y) (Scalar.epsilon * (norm₂ s * norm₂ y)) with hle | hlt
  · rw [update_of_le hle, skip]
  · rw [update_of_lt hlt]

/-- Scaling by a pair of positive curvature keeps a matrix positive definite. -/
theorem posDef_base (hc : c.matrix.toMatrix.PosDef) (hsty : 0 < dot s y) :
    (c.base s y).toMatrix.PosDef := by
  rw [base]
  split_ifs
  · have hyy : 0 < dot y y := by
      rw [dot_eq] at hsty ⊢
      have hy : y.get ≠ 0 := by
        intro h0
        rw [h0, dotProduct_zero] at hsty
        exact lt_irrefl _ hsty
      exact dotProduct_self_star_pos_iff.2 hy
    rw [Mat.toMatrix_scaled]
    exact hc.smul (div_pos hsty hyy)
  · exact hc

/-- The curvature of a damped pair is the fraction of the predicted one that is asked for. -/
theorem dot_dampedStep {damping sty yhy : ℝ} {hy : Vector ℝ n} (hsty : dot s y = sty)
    (hyhy : dot y hy = yhy) (hne : yhy - sty ≠ 0) :
    dot (dampedStep damping s hy sty yhy) y = damping * yhy := by
  rw [dot_eq] at hsty hyhy
  rw [dampedStep, dot_eq, get_add, get_scale, get_scale, add_dotProduct, smul_dotProduct,
    smul_dotProduct, hsty, dotProduct_comm hy.get, hyhy, smul_eq_mul, smul_eq_mul]
  field_simp
  ring

theorem IsWeak.predicted_pos (hweak : c.IsWeak s y) (hsty : 0 < dot s y) : 0 < c.predicted s y :=
  pos_of_mul_pos_right (hsty.trans hweak.2) hweak.1.le

@[inherit_doc dot_dampedStep]
theorem IsWeak.dot_usedStep (hweak : c.IsWeak s y) (h1 : c.damping ≤ 1) (hsty : 0 < dot s y) :
    dot (c.usedStep s y) y = c.damping * c.predicted s y := by
  have hle : c.damping * c.predicted s y ≤ c.predicted s y :=
    mul_le_of_le_one_left (hweak.predicted_pos hsty).le h1
  rw [usedStep, if_pos hweak]
  exact dot_dampedStep rfl rfl (sub_ne_zero.2 (hweak.2.trans_le hle).ne')

/-- The displacement that enters the matrix has positive curvature. -/
theorem dot_usedStep_pos (h1 : c.damping ≤ 1)
    (hsty : 0 < dot s y) : 0 < dot (c.usedStep s y) y := by
  by_cases hweak : c.IsWeak s y
  · rw [hweak.dot_usedStep h1 hsty]
    exact mul_pos hweak.1 (hweak.predicted_pos hsty)
  · rw [usedStep, if_neg hweak]
    exact hsty

/-- **An update keeps the matrix positive definite.** -/
theorem posDef_update (hc : c.matrix.toMatrix.PosDef) (h1 : c.damping ≤ 1) (s y : Vector ℝ n) :
    (c.update s y).2.matrix.toMatrix.PosDef := by
  rcases c.matrix_update s y with h | ⟨hsty, h⟩
  · rw [h]
    exact hc
  · rw [h, next]
    exact posDef_corrected (posDef_base hc hsty) (dot_usedStep_pos h1 hsty)

/-! ## Many updates -/

/-- What every curvature matrix of the method satisfies. -/
structure IsDefinite (c : Curvature ℝ n) : Prop where
  posDef : c.matrix.toMatrix.PosDef
  damping_le_one : c.damping ≤ 1

theorem isDefinite_initial (n : Nat) (o : CurvatureOptions ℝ) : (initial n o).IsDefinite := by
  refine ⟨Mat.posDef_identity, ?_⟩
  show (if o.damping < 0 then 0 else if 1 < o.damping then 1 else o.damping) ≤ 1
  split_ifs with _ h
  · exact zero_le_one
  · exact le_rfl
  · exact not_lt.1 h

theorem IsDefinite.update (hc : c.IsDefinite) (s y : Vector ℝ n) : (c.update s y).2.IsDefinite :=
  ⟨posDef_update hc.posDef hc.damping_le_one s y, (damping_update c s y).trans_le hc.damping_le_one⟩

/-- The matrix after a sequence of pairs. -/
noncomputable def after (c : Curvature ℝ n) (pairs : List (Vector ℝ n × Vector ℝ n)) :
    Curvature ℝ n :=
  pairs.foldl (fun c p ↦ (c.update p.1 p.2).2) c

/-- Any sequence of updates keeps the matrix positive definite. -/
theorem IsDefinite.after (hc : c.IsDefinite) (pairs : List (Vector ℝ n × Vector ℝ n)) :
    (c.after pairs).IsDefinite := by
  induction pairs generalizing c with
  | nil => exact hc
  | cons p pairs ih => exact ih (hc.update p.1 p.2)

end Curvature

end ExactPenalty
