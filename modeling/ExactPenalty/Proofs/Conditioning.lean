import Mathlib
import ExactPenalty.Conditioning
import ExactPenalty.Proofs.Linear

/-!
# Clipping keeps a matrix positive definite

A decomposition `a = V diag(λ) Vᵀ` with orthonormal columns makes `a` positive definite exactly when
all `λ` are positive.  Both ways to clip a positive spectrum leave it positive: a floor below the
largest eigenvalue, or a cap above the smallest, is itself positive.

## What is here

* `Eigen.Decomposes`, `EigenMethod.IsExact` — what an exact decomposition is.
* `EigenMethod.exact` — that there is one, for every symmetric matrix.
* `Eigen.Decomposes.posDef_iff` — positive definiteness read off the spectrum.
* `condition_cases` — what the clipping can return.
* `Eigen.Decomposes.rebuild_map`, `condition_together` — that it does not depend on the decomposition.
* `posDef_condition` — that it is positive definite if the matrix was.
-/

set_option autoImplicit false

namespace ExactPenalty

open Linear Matrix

variable {n : Nat}

/-! ## Exact decompositions -/

namespace Eigen

/-- `e` is an eigenvalue decomposition of `a`, with orthonormal eigenvectors. -/
structure Decomposes (e : Eigen ℝ n) (a : Mat ℝ n n) : Prop where
  orthonormal : e.vectors.toMatrixᵀ * e.vectors.toMatrix = 1
  rebuilt : e.vectors.toMatrix * diagonal e.values.get * e.vectors.toMatrixᵀ = a.toMatrix

theorem toMatrix_rebuild (e : Eigen ℝ n) :
    e.rebuild.toMatrix = e.vectors.toMatrix * diagonal e.values.get * e.vectors.toMatrixᵀ := by
  rw [rebuild, Mat.toMatrix_ofFn]
  ext i j
  rw [of_apply, plainSum_eq, Matrix.mul_apply]
  refine Finset.sum_congr rfl fun k _ ↦ ?_
  rw [mul_diagonal, transpose_apply]
  rfl

variable {e : Eigen ℝ n} {a : Mat ℝ n n}

theorem posDef_conjugate_iff (h : e.vectors.toMatrixᵀ * e.vectors.toMatrix = 1) :
    (e.vectors.toMatrix * diagonal e.values.get * e.vectors.toMatrixᵀ).PosDef
      ↔ ∀ i, 0 < e.values.get i := by
  have hunit : IsUnit e.vectors.toMatrix := .of_mul_eq_one_right _ h
  rw [← conjTranspose_eq_transpose_of_trivial, ← star_eq_conjTranspose,
    hunit.posDef_star_right_conjugate_iff, posDef_diagonal_iff]

/-- A matrix is positive definite exactly when its eigenvalues are positive. -/
theorem Decomposes.posDef_iff (h : e.Decomposes a) :
    a.toMatrix.PosDef ↔ ∀ i, 0 < e.values.get i := by
  rw [← h.rebuilt, posDef_conjugate_iff h.orthonormal]

/-- New positive eigenvalues for the same eigenvectors give a positive definite matrix. -/
theorem Decomposes.posDef_rebuild (h : e.Decomposes a) {values : Vector ℝ n}
    (hpos : ∀ i, 0 < values.get i) :
    ({ e with values } : Eigen ℝ n).rebuild.symmetrized.toMatrix.PosDef := by
  let e' : Eigen ℝ n := { e with values }
  have hposDef : e'.rebuild.toMatrix.PosDef := by
    rw [toMatrix_rebuild]
    exact (posDef_conjugate_iff (e := e') h.orthonormal).2 hpos
  rw [Mat.toMatrix_symmetrized _ (Mat.isSymm_of_posSemidef hposDef.posSemidef)]
  exact hposDef

end Eigen

namespace EigenMethod

/-- The method decomposes every symmetric matrix. -/
def IsExact (eigen : EigenMethod ℝ) : Prop :=
  ∀ {n : Nat} (a : Mat ℝ n n), a.toMatrix.IsSymm → (eigen a : Eigen ℝ n).Decomposes a

end EigenMethod

theorem exists_decomposes {a : Mat ℝ n n} (h : a.toMatrix.IsSymm) :
    ∃ e : Eigen ℝ n, e.Decomposes a := by
  have hh : a.toMatrix.IsHermitian := isHermitian_iff_isSymm.2 h
  let V : Matrix (Fin n) (Fin n) ℝ := hh.eigenvectorUnitary
  have hV : (Mat.ofFn fun i j ↦ V i j).toMatrix = V := Mat.toMatrix_ofFn fun i j ↦ V i j
  refine ⟨⟨.ofFn hh.eigenvalues, Mat.ofFn fun i j ↦ V i j⟩, ?_, ?_⟩
  · rw [hV, ← conjTranspose_eq_transpose_of_trivial]
    exact Unitary.coe_star_mul_self hh.eigenvectorUnitary
  · rw [hV, get_ofFn_eq, ← conjTranspose_eq_transpose_of_trivial]
    exact hh.spectral_theorem.symm

open Classical in
/-- A method that is exact by choice. -/
noncomputable def EigenMethod.exact : EigenMethod ℝ := fun {n} a ↦
  if h : a.toMatrix.IsSymm then (exists_decomposes h).choose
  else ⟨.replicate n 0, Mat.identity ℝ n⟩

theorem EigenMethod.exact_isExact : EigenMethod.exact.IsExact := by
  intro n a h
  rw [EigenMethod.exact, dif_pos h]
  exact (exists_decomposes h).choose_spec

/-- The spectrum, which is taken of the symmetric part, decomposes a symmetric matrix itself. -/
theorem EigenMethod.IsExact.decomposes_spectrum {eigen : EigenMethod ℝ} (heigen : eigen.IsExact)
    {h : Mat ℝ n n} (hsymm : h.toMatrix.IsSymm) : (spectrum eigen h).Decomposes h := by
  have heq : h.symmetrized = h := Mat.toMatrix_injective (Mat.toMatrix_symmetrized h hsymm)
  have hdec : (spectrum eigen h).Decomposes h.symmetrized := heigen _ (Mat.isSymm_symmetrized h)
  rwa [heq] at hdec

/-! ## Extremes -/

theorem maximum?_eq (l : List ℝ) : maximum? l = l.max? := by
  cases l with
  | nil => rfl
  | cons x xs =>
    have hlarger : (Scalar.larger : ℝ → ℝ → ℝ) = max := by
      funext a b
      exact Scalar.larger_real a b
    rw [maximum?, hlarger, List.max?_cons']

theorem minimum?_eq (l : List ℝ) : minimum? l = l.min? := by
  cases l with
  | nil => rfl
  | cons x xs =>
    have hsmaller : (Scalar.smaller : ℝ → ℝ → ℝ) = min := by
      funext a b
      exact Scalar.smaller_real a b
    rw [minimum?, hsmaller, List.min?_cons']

theorem mem_toList_iff {v : Vector ℝ n} {x : ℝ} : x ∈ v.toList ↔ ∃ i, v.get i = x := by
  rw [Vector.mem_toList_iff, Vector.mem_iff_getElem]
  exact ⟨fun ⟨i, hi, h⟩ ↦ ⟨⟨i, hi⟩, h⟩, fun ⟨i, h⟩ ↦ ⟨i, i.2, h⟩⟩

/-! ## Clipping -/

theorem raiseSmallest_pos {t : ℝ} (ht : 0 < t) {values : Vector ℝ n}
    (hpos : ∀ i, 0 < values.get i) (i : Fin n) : 0 < (raiseSmallest t values).get i := by
  rw [raiseSmallest, maximum?_eq]
  cases hmax : values.toList.max? with
  | none => exact hpos i
  | some greatest =>
    obtain ⟨j, hj⟩ := mem_toList_iff.1 (List.max?_mem hmax)
    have hfloor : 0 < greatest / t := div_pos (hj ▸ hpos j) ht
    rw [get_map]
    split_ifs
    · exact hfloor
    · exact hpos i

theorem lowerLargest_pos {t : ℝ} (ht : 0 < t) {values : Vector ℝ n}
    (hpos : ∀ i, 0 < values.get i) (i : Fin n) : 0 < (lowerLargest t values).get i := by
  rw [lowerLargest, minimum?_eq]
  cases hmin : (magnitudes values).min? with
  | none => exact hpos i
  | some least =>
    obtain ⟨v, hv, hleast⟩ := List.mem_map.1 (List.min?_mem hmin)
    obtain ⟨j, rfl⟩ := mem_toList_iff.1 hv
    have hcap : 0 < t * least := by
      rw [← hleast, Scalar.abs_real]
      exact mul_pos ht (abs_pos.2 (hpos j).ne')
    rw [get_map]
    split_ifs with _ hneg
    · exact absurd hneg (hpos i).not_gt
    · exact hcap
    · exact hpos i

/-- The matrix is returned as it is, or its spectrum is clipped in one of the two ways. -/
theorem condition_cases (eigen : EigenMethod ℝ) (o : ConditioningOptions ℝ) (h : Mat ℝ n n) :
    (condition eigen o h).matrix = h ∨
      ∃ t, 0 < t ∧ ∃ values ∈ [lowerLargest t (spectrum eigen h).values,
          raiseSmallest t (spectrum eigen h).values],
        (condition eigen o h).matrix
          = ({ spectrum eigen h with values } : Eigen ℝ n).rebuild.symmetrized := by
  rw [condition]
  split
  · next t _ =>
    have ht : 0 < Scalar.larger t 1 := by
      rw [Scalar.larger_real]
      exact lt_max_of_lt_right one_pos
    dsimp only
    split_ifs
    · exact .inl rfl
    · exact .inl rfl
    · exact .inr ⟨_, ht, _, List.mem_cons_self, rfl⟩
    · exact .inr ⟨_, ht, _, List.mem_cons_of_mem _ List.mem_cons_self, rfl⟩
  · exact .inl rfl

/-! ## Other decompositions

A matrix has many decompositions if an eigenvalue is repeated, but they have the same eigenvalues, and
the same eigenspaces.  So what is made of a matrix by a function of its eigenvalues is made of it by any
of its decompositions, and the clipping is such a function. -/

namespace Eigen.Decomposes

variable {e e' : Eigen ℝ n} {a : Mat ℝ n n}

theorem mul_transpose (h : e.Decomposes a) : e.vectors.toMatrix * e.vectors.toMatrixᵀ = 1 :=
  mul_eq_one_comm.1 h.orthonormal

/-- The overlap of two eigenvectors is zero unless they belong to the same eigenvalue. -/
theorem values_eq_of_overlap (h : e.Decomposes a) (h' : e'.Decomposes a) {i j : Fin n}
    (hij : (e'.vectors.toMatrixᵀ * e.vectors.toMatrix) i j ≠ 0) :
    e'.values.get i = e.values.get j := by
  have hcommute : diagonal e'.values.get * (e'.vectors.toMatrixᵀ * e.vectors.toMatrix)
      = e'.vectors.toMatrixᵀ * e.vectors.toMatrix * diagonal e.values.get := by
    calc diagonal e'.values.get * (e'.vectors.toMatrixᵀ * e.vectors.toMatrix)
        = e'.vectors.toMatrixᵀ * (e'.vectors.toMatrix * diagonal e'.values.get
            * e'.vectors.toMatrixᵀ) * e.vectors.toMatrix := by
          simp only [← Matrix.mul_assoc, h'.orthonormal, Matrix.one_mul]
      _ = e'.vectors.toMatrixᵀ * (e.vectors.toMatrix * diagonal e.values.get
            * e.vectors.toMatrixᵀ) * e.vectors.toMatrix := by rw [h'.rebuilt, h.rebuilt]
      _ = e'.vectors.toMatrixᵀ * e.vectors.toMatrix * diagonal e.values.get := by
          simp only [Matrix.mul_assoc, h.orthonormal, Matrix.mul_one]
  have hentry := congrFun (congrFun hcommute i) j
  rw [diagonal_mul, mul_diagonal, mul_comm] at hentry
  exact mul_left_cancel₀ hij hentry

/-- Two decompositions have the same eigenvalues. -/
theorem exists_values_eq (h : e.Decomposes a) (h' : e'.Decomposes a) (j : Fin n) :
    ∃ i, e'.values.get i = e.values.get j := by
  let W := e'.vectors.toMatrixᵀ * e.vectors.toMatrix
  by_contra hnone
  have hzero (i : Fin n) : W i j = 0 := by
    by_contra hij
    exact hnone ⟨i, values_eq_of_overlap h h' hij⟩
  have hunit : Wᵀ * W = 1 := by
    rw [transpose_mul, transpose_transpose, Matrix.mul_assoc, ← Matrix.mul_assoc _ _ e.vectors.toMatrix,
      h'.mul_transpose, Matrix.one_mul, h.orthonormal]
  have hone := congrFun (congrFun hunit j) j
  rw [Matrix.mul_apply, one_apply_eq] at hone
  simp [hzero] at hone

theorem mem_values_iff (h : e.Decomposes a) (h' : e'.Decomposes a) {x : ℝ} :
    x ∈ e.values.toList ↔ x ∈ e'.values.toList := by
  rw [mem_toList_iff, mem_toList_iff]
  constructor
  · rintro ⟨j, rfl⟩
    exact exists_values_eq h h' j
  · rintro ⟨j, rfl⟩
    exact exists_values_eq h' h j

/-- **A function of the eigenvalues makes the same matrix of every decomposition.** -/
theorem rebuild_map (h : e.Decomposes a) (h' : e'.Decomposes a) (f : ℝ → ℝ) :
    ({ e with values := e.values.map f } : Eigen ℝ n).rebuild
      = ({ e' with values := e'.values.map f } : Eigen ℝ n).rebuild := by
  let V := e.vectors.toMatrix
  let V' := e'.vectors.toMatrix
  let D := diagonal (e.values.map f).get
  let D' := diagonal (e'.values.map f).get
  have hcommute : D' * (V'ᵀ * V) = V'ᵀ * V * D := by
    ext i j
    rw [diagonal_mul, mul_diagonal, get_map, get_map, mul_comm]
    by_cases hij : (V'ᵀ * V) i j = 0
    · rw [hij, zero_mul, zero_mul]
    · rw [values_eq_of_overlap h h' hij]
  refine Mat.toMatrix_injective ?_
  rw [toMatrix_rebuild, toMatrix_rebuild]
  calc V * D * Vᵀ = V' * V'ᵀ * V * D * Vᵀ := by rw [h'.mul_transpose, Matrix.one_mul]
    _ = V' * (V'ᵀ * V * D) * Vᵀ := by simp only [Matrix.mul_assoc]
    _ = V' * D' * V'ᵀ * (V * Vᵀ) := by rw [← hcommute]; simp only [Matrix.mul_assoc]
    _ = V' * D' * V'ᵀ := by rw [h.mul_transpose, Matrix.mul_one]

end Eigen.Decomposes

theorem max?_congr {l l' : List ℝ} (h : ∀ x, x ∈ l ↔ x ∈ l') : l.max? = l'.max? := by
  cases hl : l.max? with
  | none =>
    rw [List.max?_eq_none_iff] at hl
    subst hl
    obtain rfl : l' = [] := List.eq_nil_iff_forall_not_mem.2 fun x hx ↦ List.not_mem_nil ((h x).2 hx)
    rfl
  | some a =>
    obtain ⟨hmem, hle⟩ := List.max?_eq_some_iff.1 hl
    exact (List.max?_eq_some_iff.2 ⟨(h a).1 hmem, fun b hb ↦ hle b ((h b).2 hb)⟩).symm

theorem min?_congr {l l' : List ℝ} (h : ∀ x, x ∈ l ↔ x ∈ l') : l.min? = l'.min? := by
  cases hl : l.min? with
  | none =>
    rw [List.min?_eq_none_iff] at hl
    subst hl
    obtain rfl : l' = [] := List.eq_nil_iff_forall_not_mem.2 fun x hx ↦ List.not_mem_nil ((h x).2 hx)
    rfl
  | some a =>
    obtain ⟨hmem, hle⟩ := List.min?_eq_some_iff.1 hl
    exact (List.min?_eq_some_iff.2 ⟨(h a).1 hmem, fun b hb ↦ hle b ((h b).2 hb)⟩).symm

section Spectra

variable {values values' : Vector ℝ n} (h : ∀ x, x ∈ values.toList ↔ x ∈ values'.toList)
include h

theorem mem_magnitudes_iff (x : ℝ) : x ∈ magnitudes values ↔ x ∈ magnitudes values' := by
  simp only [magnitudes, List.mem_map, h]

theorem magnitudeRatio_congr : magnitudeRatio values = magnitudeRatio values' := by
  rw [magnitudeRatio, magnitudeRatio, minimum?_eq, minimum?_eq, maximum?_eq, maximum?_eq,
    min?_congr (mem_magnitudes_iff h), max?_congr (mem_magnitudes_iff h)]

theorem any_zero_congr : (values.any fun v ↦ decide (Scalar.Same v 0))
    = values'.any fun v ↦ decide (Scalar.Same v 0) := by
  rw [← Vector.any_toList, ← Vector.any_toList, Bool.eq_iff_iff, List.any_eq_true, List.any_eq_true]
  simp only [h]

/-- Raising is a function of the single eigenvalue, the same one for all spectra with these
eigenvalues. -/
theorem exists_raiseSmallest_eq (t : ℝ) : ∃ f : ℝ → ℝ, raiseSmallest t values = values.map f ∧
    raiseSmallest t values' = values'.map f := by
  rw [raiseSmallest, raiseSmallest, maximum?_eq, maximum?_eq, max?_congr h]
  cases values'.toList.max? with
  | none => exact ⟨id, values.map_id.symm, values'.map_id.symm⟩
  | some greatest => exact ⟨_, rfl, rfl⟩

@[inherit_doc exists_raiseSmallest_eq]
theorem exists_lowerLargest_eq (t : ℝ) : ∃ f : ℝ → ℝ, lowerLargest t values = values.map f ∧
    lowerLargest t values' = values'.map f := by
  rw [lowerLargest, lowerLargest, minimum?_eq, minimum?_eq, min?_congr (mem_magnitudes_iff h)]
  cases (magnitudes values').min? with
  | none => exact ⟨id, values.map_id.symm, values'.map_id.symm⟩
  | some least => exact ⟨_, rfl, rfl⟩

end Spectra

/-- **Matrices with the same eigenvalues are clipped alike**: either both are within the threshold, or
the same function is applied to the eigenvalues of both. -/
theorem condition_together {eigen : EigenMethod ℝ} (o : ConditioningOptions ℝ) {a b : Mat ℝ n n}
    (h : ∀ x, x ∈ (spectrum eigen a).values.toList ↔ x ∈ (spectrum eigen b).values.toList) :
    ((condition eigen o a).matrix = a ∧ (condition eigen o b).matrix = b) ∨
      ∃ f : ℝ → ℝ,
        (condition eigen o a).matrix = ({ spectrum eigen a with
          values := (spectrum eigen a).values.map f } : Eigen ℝ n).rebuild.symmetrized ∧
        (condition eigen o b).matrix = ({ spectrum eigen b with
          values := (spectrum eigen b).values.map f } : Eigen ℝ n).rebuild.symmetrized := by
  rw [condition.eq_def, condition.eq_def]
  cases o.threshold with
  | negInf => exact .inl ⟨rfl, rfl⟩
  | posInf => exact .inl ⟨rfl, rfl⟩
  | finite t =>
    dsimp only
    rw [magnitudeRatio_congr h, any_zero_congr h]
    obtain ⟨raised, hraised, hraised'⟩ := exists_raiseSmallest_eq h (Scalar.larger t 1)
    obtain ⟨lowered, hlowered, hlowered'⟩ := exists_lowerLargest_eq h (Scalar.larger t 1)
    split_ifs
    · exact .inl ⟨rfl, rfl⟩
    · exact .inl ⟨rfl, rfl⟩
    · exact .inr ⟨lowered, by rw [hlowered], by rw [hlowered']⟩
    · exact .inr ⟨raised, by rw [hraised], by rw [hraised']⟩

/-- **Clipping the spectrum keeps a matrix positive definite.** -/
theorem posDef_condition {eigen : EigenMethod ℝ} (heigen : eigen.IsExact)
    (o : ConditioningOptions ℝ) {h : Mat ℝ n n} (hh : h.toMatrix.PosDef) :
    (condition eigen o h).matrix.toMatrix.PosDef := by
  rcases condition_cases eigen o h with heq | ⟨t, ht, values, hvalues, heq⟩
  · rw [heq]
    exact hh
  · have hdec : (spectrum eigen h).Decomposes h :=
      heigen.decomposes_spectrum (Mat.isSymm_of_posSemidef hh.posSemidef)
    have hpos : ∀ i, 0 < (spectrum eigen h).values.get i := hdec.posDef_iff.1 hh
    rw [heq]
    refine hdec.posDef_rebuild ?_
    rcases List.mem_pair.1 hvalues with rfl | rfl
    · exact lowerLargest_pos ht hpos
    · exact raiseSmallest_pos ht hpos

end ExactPenalty
