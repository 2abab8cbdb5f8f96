import Mathlib
import ExactPenalty.Proofs.Linear

/-!
# Changes of frame

The method is defined by inner products, and it weighs the objective with a penalty parameter of its
own.  So it should neither depend on the coordinates of the space nor on the unit of the objective.  A
`Frame` is a change of both: the point `x` has the coordinates `U x + a` in the new frame, where `U` is
orthogonal, and the objective is measured in a unit `1 / α`, so that the value `f` becomes `α f` and the
penalty parameter `μ` becomes `μ / α`.

This file is about vectors and matrices.

* `Frame.vec`, `Frame.point`, `Frame.mat`, `Frame.columns` — displacements, points, metrics, and
  matrices whose columns are displacements.
* `Frame.dot_vec`, `Frame.norm₂_vec` — inner products and norms do not depend on the frame.
* `Frame.mulVec_mat`, `Frame.mul_mat` — products with a metric do so like their factors.
* `Frame.rigid`, `Frame.ofUnit` — the two kinds of frames.
-/

set_option autoImplicit false

namespace ExactPenalty

open Linear Matrix

variable {n m : Nat}

/-- A change of coordinates and of the unit of the objective. -/
structure Frame (n : Nat) where
  rotation : Matrix (Fin n) (Fin n) ℝ
  orthogonal : rotation ∈ Matrix.orthogonalGroup (Fin n) ℝ
  shift : Vector ℝ n
  /-- How many new units of the objective an old one is. -/
  unit : ℝ
  unit_pos : 0 < unit

namespace Frame

/-- New coordinates, and the old unit. -/
noncomputable def rigid {U : Matrix (Fin n) (Fin n) ℝ} (hU : U ∈ Matrix.orthogonalGroup (Fin n) ℝ)
    (a : Vector ℝ n) : Frame n := ⟨U, hU, a, 1, one_pos⟩

/-- A new unit, and the old coordinates. -/
noncomputable def ofUnit (n : Nat) {α : ℝ} (hα : 0 < α) : Frame n :=
  ⟨1, one_mem _, .replicate n 0, α, hα⟩

variable (F : Frame n)

theorem transpose_mul_rotation : F.rotationᵀ * F.rotation = 1 :=
  (Matrix.mem_orthogonalGroup_iff' (Fin n) ℝ).1 F.orthogonal

theorem mul_transpose_rotation : F.rotation * F.rotationᵀ = 1 :=
  mul_eq_one_comm.1 F.transpose_mul_rotation

theorem rotation_mulVec_eq_zero_iff {v : Fin n → ℝ} : F.rotation *ᵥ v = 0 ↔ v = 0 := by
  refine ⟨fun h ↦ ?_, fun h ↦ by rw [h, mulVec_zero]⟩
  rw [← one_mulVec v, ← F.transpose_mul_rotation, ← mulVec_mulVec, h, mulVec_zero]

@[simp] theorem dotProduct_rotation (u v : Fin n → ℝ) : F.rotation *ᵥ u ⬝ᵥ F.rotation *ᵥ v = u ⬝ᵥ v := by
  rw [dotProduct_mulVec, vecMul_mulVec, F.transpose_mul_rotation, vecMul_one]

/-! ## Vectors -/

/-- A displacement, or a gradient, in the new coordinates. -/
noncomputable def vec (v : Vector ℝ n) : Vector ℝ n := .ofFn (F.rotation *ᵥ v.get)

/-- A point in the new coordinates. -/
noncomputable def point (x : Vector ℝ n) : Vector ℝ n := F.vec x + F.shift

/-- The point that has the given new coordinates. -/
noncomputable def origin (z : Vector ℝ n) : Vector ℝ n :=
  .ofFn (F.rotationᵀ *ᵥ (z - F.shift).get)

@[simp] theorem get_vec (v : Vector ℝ n) : (F.vec v).get = F.rotation *ᵥ v.get :=
  get_ofFn_eq _

@[simp] theorem origin_point (x : Vector ℝ n) : F.origin (F.point x) = x := by
  have hget : (F.point x - F.shift).get = F.rotation *ᵥ x.get := by simp [point]
  refine ext_get fun i ↦ ?_
  rw [origin, get_ofFn, hget, mulVec_mulVec, F.transpose_mul_rotation, one_mulVec]

theorem vec_add (u v : Vector ℝ n) : F.vec (u + v) = F.vec u + F.vec v :=
  ext_get fun i ↦ by simp [mulVec_add]

theorem vec_sub (u v : Vector ℝ n) : F.vec (u - v) = F.vec u - F.vec v :=
  ext_get fun i ↦ by simp [mulVec_sub]

theorem vec_neg (v : Vector ℝ n) : F.vec (-v) = -F.vec v :=
  ext_get fun i ↦ by simp [mulVec_neg]

theorem vec_scale (v : Vector ℝ n) (c : ℝ) : F.vec (scale v c) = scale (F.vec v) c :=
  ext_get fun i ↦ by simp [mulVec_smul]

theorem vec_map_div (v : Vector ℝ n) (c : ℝ) : F.vec (v.map (· / c)) = (F.vec v).map (· / c) := by
  have hscale (v : Vector ℝ n) : v.map (· / c) = scale v c⁻¹ :=
    ext_get fun i ↦ by simp [div_eq_inv_mul]
  rw [hscale, hscale, vec_scale]

@[simp] theorem vec_replicate_zero : F.vec (.replicate n 0) = .replicate n 0 := by
  refine ext_get fun i ↦ ?_
  rw [get_vec, get_replicate_zero, mulVec_zero]

/-- What is multiplied by the unit, and then by a penalty parameter in the new unit. -/
theorem scale_scale_unit (v : Vector ℝ m) (μ : ℝ) : scale (scale v F.unit) (μ / F.unit) = scale v μ :=
  ext_get fun i ↦ by simp only [get_scale, smul_smul, div_mul_cancel₀ μ F.unit_pos.ne']

theorem point_sub (x y : Vector ℝ n) : F.point x - F.point y = F.vec (x - y) :=
  ext_get fun i ↦ by simp [point, mulVec_sub]

theorem along_point (x d : Vector ℝ n) (t : ℝ) :
    along (F.point x) (F.vec d) t = F.point (along x d t) :=
  ext_get fun i ↦ by simp [point, mulVec_add, mulVec_smul, add_right_comm]

theorem dot_vec (u v : Vector ℝ n) : dot (F.vec u) (F.vec v) = dot u v := by
  rw [dot_eq, dot_eq, get_vec, get_vec, F.dotProduct_rotation]

theorem plainDot_vec (u v : Vector ℝ n) : plainDot (F.vec u) (F.vec v) = plainDot u v := by
  rw [plainDot_eq, plainDot_eq, get_vec, get_vec, F.dotProduct_rotation]

@[simp] theorem norm₂_vec (v : Vector ℝ n) : norm₂ (F.vec v) = norm₂ v := by
  rw [norm₂, norm₂, dot_vec]

theorem get_vec_eq_zero_iff {v : Vector ℝ n} : (F.vec v).get = 0 ↔ v.get = 0 := by
  rw [get_vec, F.rotation_mulVec_eq_zero_iff]

/-- Displacements stay as they are where only the unit changes. -/
theorem vec_of_rotation_eq_one (h : F.rotation = 1) (v : Vector ℝ n) : F.vec v = v :=
  ext_get fun i ↦ by rw [get_vec, h, one_mulVec]

/-! ## Matrices -/

/-- A metric, or an inverse one, in the new coordinates. -/
noncomputable def mat (h : Mat ℝ n n) : Mat ℝ n n :=
  .ofFn fun i j ↦ (F.rotation * h.toMatrix * F.rotationᵀ) i j

/-- A matrix whose columns are displacements, in the new coordinates. -/
noncomputable def columns (a : Mat ℝ n m) : Mat ℝ n m := .ofFn fun i j ↦ (F.rotation * a.toMatrix) i j

@[simp] theorem toMatrix_mat (h : Mat ℝ n n) :
    (F.mat h).toMatrix = F.rotation * h.toMatrix * F.rotationᵀ := Mat.toMatrix_ofFn _

@[simp] theorem toMatrix_columns (a : Mat ℝ n m) :
    (F.columns a).toMatrix = F.rotation * a.toMatrix := Mat.toMatrix_ofFn _

@[simp] theorem mat_identity : F.mat (.identity ℝ n) = .identity ℝ n := by
  refine Mat.toMatrix_injective ?_
  rw [toMatrix_mat, Mat.toMatrix_identity, Matrix.mul_one, F.mul_transpose_rotation]

theorem mat_scaled (h : Mat ℝ n n) (c : ℝ) : F.mat (h.scaled c) = (F.mat h).scaled c := by
  refine Mat.toMatrix_injective ?_
  rw [toMatrix_mat, Mat.toMatrix_scaled, Mat.toMatrix_scaled, toMatrix_mat, Matrix.mul_smul,
    Matrix.smul_mul]

theorem mat_symmetrized (h : Mat ℝ n n) : F.mat h.symmetrized = (F.mat h).symmetrized := by
  refine Mat.toMatrix_injective ?_
  rw [toMatrix_mat, Mat.toMatrix_symmetrized_eq, Mat.toMatrix_symmetrized_eq, toMatrix_mat,
    transpose_mul, transpose_mul, transpose_transpose, ← Matrix.mul_assoc, Matrix.mul_smul,
    Matrix.smul_mul, Matrix.mul_add, Matrix.add_mul]

@[simp] theorem mulVec_mat (h : Mat ℝ n n) (v : Vector ℝ n) :
    (F.mat h).mulVec (F.vec v) = F.vec (h.mulVec v) := by
  refine ext_get fun i ↦ ?_
  rw [Mat.get_mulVec, get_vec, get_vec, Mat.get_mulVec, toMatrix_mat, mulVec_mulVec,
    Matrix.mul_assoc, F.transpose_mul_rotation, Matrix.mul_one, mulVec_mulVec]

@[simp] theorem mulVec_columns (a : Mat ℝ n m) (y : Vector ℝ m) :
    (F.columns a).mulVec y = F.vec (a.mulVec y) := by
  refine ext_get fun i ↦ ?_
  rw [Mat.get_mulVec, get_vec, Mat.get_mulVec, toMatrix_columns, mulVec_mulVec]

@[simp] theorem mul_mat (h : Mat ℝ n n) (a : Mat ℝ n m) :
    (F.mat h).mul (F.columns a) = F.columns (h.mul a) := by
  refine Mat.toMatrix_injective ?_
  rw [Mat.toMatrix_mul, toMatrix_mat, toMatrix_columns, toMatrix_columns, Mat.toMatrix_mul,
    Matrix.mul_assoc, ← Matrix.mul_assoc F.rotationᵀ, F.transpose_mul_rotation, Matrix.one_mul,
    Matrix.mul_assoc]

end Frame

end ExactPenalty
