import Mathlib
import ExactPenalty.Linear.Eigen
import ExactPenalty.Proofs.Real

/-!
# Vectors and matrices in exact arithmetic

A sum in exact arithmetic does not depend on its order, so the sums in lanes and the sums from left
to right are both the sum over all indices.  With that, a vector of the library is a function on its
indices, `v.get`, and a matrix of the library is `Mat.toMatrix`, and the products of the library are
Mathlib's `⬝ᵥ`, `*ᵥ` and `*`.

## What is here

* `Linear.plainSum_eq`, `Linear.laneSum_eq` — both sums are `∑`.
* `Linear.get_add`, … — the components of what is built from vectors; they are simp lemmas.
* `Linear.dot_eq`, `Mat.get_mulVec`, `Mat.toMatrix_mul`, … — the products.
* `Mat.toMatrix_symmetrized` — averaging a symmetric matrix with its transpose changes nothing.
-/

set_option autoImplicit false

namespace ExactPenalty

open Matrix

namespace Linear

variable {n m : Nat}

/-! ## Sums -/

theorem foldl_add_eq (f : Fin n → ℝ) (a : ℝ) :
    Fin.foldl n (fun acc i ↦ acc + f i) a = a + ∑ i, f i := by
  induction n with
  | zero => simp
  | succ n ih => rw [Fin.foldl_succ_last, ih, Fin.sum_univ_castSucc, add_assoc]

@[simp] theorem plainSum_eq (f : Fin n → ℝ) : plainSum f = ∑ i, f i := by
  show Fin.foldl n (fun acc i ↦ acc + f i) 0 = _
  rw [foldl_add_eq, zero_add]

theorem lane_index_lt (b : Fin (n / 8)) (j : Fin 8) : 8 * b.val + j.val < n := by
  omega

@[simp] theorem lane_eq (f : Fin n → ℝ) (j : Fin 8) :
    lane f j = ∑ b : Fin (n / 8), f ⟨8 * b + j, lane_index_lt b j⟩ := by
  show Fin.foldl (n / 8) (fun acc b ↦ acc + f ⟨8 * b + j, lane_index_lt b j⟩) 0 = _
  rw [foldl_add_eq fun b : Fin (n / 8) ↦ f ⟨8 * b + j, lane_index_lt b j⟩, zero_add]

/-- Eight lanes of `q` terms each and `r` terms after them are all the terms. -/
theorem sum_lanes (f : ℕ → ℝ) (q r : ℕ) :
    ∑ j : Fin 8, ∑ b : Fin q, f (8 * b + j) + ∑ i : Fin r, f (8 * q + i)
      = ∑ k ∈ Finset.range (8 * q + r), f k := by
  have hblocks : ∑ j : Fin 8, ∑ b : Fin q, f (8 * b + j) = ∑ k ∈ Finset.range (8 * q), f k := by
    rw [Finset.sum_comm]
    induction q with
    | zero => simp
    | succ q ih =>
      rw [Fin.sum_univ_castSucc, Nat.mul_succ, Finset.sum_range_add]
      simp only [Fin.val_castSucc, Fin.val_last]
      rw [ih, Finset.sum_range fun j ↦ f (8 * q + j)]
  rw [hblocks, Finset.sum_range_add, Finset.sum_range fun i ↦ f (8 * q + i)]

@[simp] theorem laneSum_eq (f : Fin n → ℝ) : laneSum f = ∑ i, f i := by
  let g : ℕ → ℝ := fun k ↦ if h : k < n then f ⟨k, h⟩ else 0
  have hg (k : ℕ) (h : k < n) : f ⟨k, h⟩ = g k := by rw [show g k = f ⟨k, h⟩ from dif_pos h]
  have hlane (j : Fin 8) : lane f j = ∑ b : Fin (n / 8), g (8 * b + j) := by
    rw [lane_eq]
    exact Finset.sum_congr rfl fun b _ ↦ hg _ _
  have hall : ∑ i, f i = ∑ k ∈ Finset.range n, g k := by
    rw [Finset.sum_range]
    exact Finset.sum_congr rfl fun i _ ↦ hg i i.isLt
  have hpairs : Fin.foldl 4 (fun acc j ↦
      acc + (lane f ⟨j, by omega⟩ + lane f ⟨j + 4, by omega⟩)) 0 = ∑ j : Fin 8, lane f j := by
    rw [foldl_add_eq fun j : Fin 4 ↦ lane f ⟨j, by omega⟩ + lane f ⟨j + 4, by omega⟩, zero_add,
      Fin.sum_univ_four, Fin.sum_univ_eight]
    show (lane f 0 + lane f 4) + (lane f 1 + lane f 5) + (lane f 2 + lane f 6)
      + (lane f 3 + lane f 7) = _
    ring
  show Fin.foldl (n % 8) (fun acc i ↦ acc + f ⟨8 * (n / 8) + i, by omega⟩)
    (Fin.foldl 4 (fun acc j ↦ acc + (lane f ⟨j, by omega⟩ + lane f ⟨j + 4, by omega⟩)) 0) = _
  rw [foldl_add_eq fun i : Fin (n % 8) ↦ f ⟨8 * (n / 8) + i, by omega⟩, hpairs, hall]
  simp only [hlane, hg]
  rw [sum_lanes, Nat.div_add_mod]

/-! ## Components -/

section Components

variable {α β : Type}

theorem get_eq (v : Vector α n) (i : Fin n) : v.get i = getElem v i.val i.isLt := rfl

/-- Vectors with the same components are the same. -/
theorem ext_get {u v : Vector α n} (h : ∀ i, u.get i = v.get i) : u = v :=
  Vector.ext fun i hi ↦ h ⟨i, hi⟩

@[simp] theorem get_ofFn (f : Fin n → α) (i : Fin n) : (Vector.ofFn f).get i = f i := by
  simp [get_eq]

theorem get_ofFn_eq (f : Fin n → α) : (Vector.ofFn f).get = f := funext (get_ofFn f)

@[simp] theorem get_map (f : α → β) (v : Vector α n) (i : Fin n) :
    (v.map f).get i = f (v.get i) := by
  simp [get_eq]

@[simp] theorem get_replicate (a : α) (i : Fin n) : (Vector.replicate n a).get i = a := by
  simp [get_eq]

@[simp] theorem get_add [Add α] (u v : Vector α n) : (u + v).get = u.get + v.get := by
  funext i
  simp [get_eq]

@[simp] theorem get_sub [Sub α] (u v : Vector α n) : (u - v).get = u.get - v.get := by
  funext i
  simp [get_eq]

@[simp] theorem get_neg [Neg α] (v : Vector α n) : (-v).get = -v.get := by
  funext i
  simp [get_eq]

end Components

theorem get_replicate_zero : (Vector.replicate n (0 : ℝ)).get = 0 := funext (get_replicate 0)

@[simp] theorem get_scale (v : Vector ℝ n) (c : ℝ) : (scale v c).get = c • v.get := by
  funext i
  simp [scale, mul_comm c]

@[simp] theorem get_along (x d : Vector ℝ n) (t : ℝ) : (along x d t).get = x.get + t • d.get := by
  simp [along]

@[simp] theorem allFinite_real (v : Vector ℝ n) : allFinite v = true := by
  simp [allFinite]

/-! ## Inner products -/

@[simp] theorem dot_eq (u v : Vector ℝ n) : dot u v = u.get ⬝ᵥ v.get := by
  rw [dot, laneSum_eq]
  rfl

@[simp] theorem plainDot_eq (u v : Vector ℝ n) : plainDot u v = u.get ⬝ᵥ v.get := by
  rw [plainDot, plainSum_eq]
  rfl

theorem norm₂_eq (v : Vector ℝ n) : norm₂ v = √(v.get ⬝ᵥ v.get) := by
  rw [norm₂, dot_eq, Scalar.sqrt_real]

theorem norm₂_nonneg (v : Vector ℝ n) : 0 ≤ norm₂ v := by
  rw [norm₂_eq]
  exact Real.sqrt_nonneg _

theorem norm₂_pos {v : Vector ℝ n} (h : v ≠ .replicate n 0) : 0 < norm₂ v := by
  have hget : v.get ≠ 0 := fun hzero ↦ h (ext_get fun i ↦ by rw [hzero, get_replicate]; rfl)
  rw [norm₂_eq]
  exact Real.sqrt_pos.2 (dotProduct_self_star_pos_iff.2 hget)

theorem norm₂_eq_zero_iff {v : Vector ℝ n} : norm₂ v = 0 ↔ v.get = 0 := by
  have hnonneg : 0 ≤ v.get ⬝ᵥ v.get := dotProduct_self_star_nonneg v.get
  rw [norm₂_eq, Real.sqrt_eq_zero hnonneg, dotProduct_self_eq_zero]

theorem norm₂_scale {c : ℝ} (hc : 0 ≤ c) (v : Vector ℝ n) : norm₂ (scale v c) = c * norm₂ v := by
  rw [norm₂_eq, norm₂_eq, get_scale, smul_dotProduct, dotProduct_smul, smul_eq_mul, smul_eq_mul, ← mul_assoc,
    Real.sqrt_mul (mul_self_nonneg c), Real.sqrt_mul_self hc]

end Linear

/-! ## Matrices -/

namespace Mat

open Linear

variable {n m k : Nat}

/-- A matrix of the library as a matrix of Mathlib. -/
def toMatrix (a : Mat ℝ n m) : Matrix (Fin n) (Fin m) ℝ := Matrix.of fun i j ↦ (a.get i).get j

theorem toMatrix_apply (a : Mat ℝ n m) (i : Fin n) (j : Fin m) :
    a.toMatrix i j = (a.get i).get j := rfl

/-- Matrices with the same entries are the same. -/
theorem toMatrix_injective : Function.Injective (toMatrix : Mat ℝ n m → Matrix (Fin n) (Fin m) ℝ) :=
  fun _ _ h ↦ ext_get fun i ↦ ext_get fun j ↦ congrFun (congrFun h i) j

@[simp] theorem toMatrix_ofFn (entry : Fin n → Fin m → ℝ) :
    (Mat.ofFn entry).toMatrix = Matrix.of entry := by
  ext i j
  simp [toMatrix_apply, Mat.ofFn]

@[simp] theorem toMatrix_identity : (Mat.identity ℝ n).toMatrix = 1 := by
  ext i j
  simp [Mat.identity, Matrix.one_apply]

@[simp] theorem get_mulVec (a : Mat ℝ n m) (v : Vector ℝ m) :
    (a.mulVec v).get = a.toMatrix *ᵥ v.get := by
  funext i
  simp [Mat.mulVec, Matrix.mulVec, toMatrix]

@[simp] theorem toMatrix_mul (a : Mat ℝ n m) (b : Mat ℝ m k) :
    (a.mul b).toMatrix = a.toMatrix * b.toMatrix := by
  ext i j
  simp [Mat.mul, toMatrix_apply, Matrix.mul_apply]

theorem mulVec_mul (a : Mat ℝ n m) (b : Mat ℝ m k) (v : Vector ℝ k) :
    (a.mul b).mulVec v = a.mulVec (b.mulVec v) := by
  refine ext_get fun i ↦ ?_
  simp only [get_mulVec, toMatrix_mul, mulVec_mulVec]

@[simp] theorem toMatrix_scaled (a : Mat ℝ n m) (c : ℝ) :
    (a.scaled c).toMatrix = c • a.toMatrix := by
  ext i j
  simp [Mat.scaled, toMatrix_apply]

@[simp] theorem isFinite_real (a : Mat ℝ n m) : a.isFinite = true := by
  simp [Mat.isFinite]

theorem isSymm_of_posSemidef {M : Matrix (Fin n) (Fin n) ℝ} (h : M.PosSemidef) : M.IsSymm :=
  isHermitian_iff_isSymm.1 h.isHermitian

/-- A symmetric matrix may be applied to either of two vectors. -/
theorem dotProduct_mulVec_comm {M : Matrix (Fin n) (Fin n) ℝ} (h : M.IsSymm) (u v : Fin n → ℝ) :
    u ⬝ᵥ M *ᵥ v = v ⬝ᵥ M *ᵥ u := by
  rw [dotProduct_mulVec, ← mulVec_transpose, h.eq, dotProduct_comm]

theorem posDef_identity : (Mat.identity ℝ n).toMatrix.PosDef := by
  rw [toMatrix_identity]
  exact .one

/-- In exact arithmetic a matrix is averaged with its transpose. -/
theorem toMatrix_symmetrized_eq (a : Mat ℝ n n) :
    a.symmetrized.toMatrix = (1 / 2 : ℝ) • (a.toMatrix + a.toMatrixᵀ) := by
  rw [Mat.symmetrized, toMatrix_ofFn]
  ext i j
  simp only [Matrix.of_apply, Matrix.smul_apply, Matrix.add_apply, Matrix.transpose_apply,
    toMatrix_apply, smul_eq_mul]
  split_ifs with hlt hgt
  · ring
  · ring
  · obtain rfl : i = j := le_antisymm (not_lt.1 hgt) (not_lt.1 hlt)
    ring

theorem toMatrix_symmetrized (a : Mat ℝ n n) (h : a.toMatrix.IsSymm) :
    a.symmetrized.toMatrix = a.toMatrix := by
  rw [toMatrix_symmetrized_eq, h.eq, ← two_smul ℝ a.toMatrix, smul_smul]
  norm_num

/-- Averaging with the transpose leaves the quadratic form alone. -/
theorem dotProduct_symmetrized_mulVec (a : Mat ℝ n n) (v : Fin n → ℝ) :
    v ⬝ᵥ a.symmetrized.toMatrix *ᵥ v = v ⬝ᵥ a.toMatrix *ᵥ v := by
  have hswap : v ⬝ᵥ a.toMatrixᵀ *ᵥ v = v ⬝ᵥ a.toMatrix *ᵥ v := by
    rw [mulVec_transpose, dotProduct_comm, ← dotProduct_mulVec]
  rw [toMatrix_symmetrized_eq, smul_mulVec, add_mulVec, dotProduct_smul, dotProduct_add, hswap, smul_eq_mul]
  ring

/-- A symmetrised matrix is symmetric. -/
theorem isSymm_symmetrized (a : Mat ℝ n n) : a.symmetrized.toMatrix.IsSymm := by
  rw [toMatrix_symmetrized_eq, IsSymm, transpose_smul, transpose_add, transpose_transpose, add_comm]

end Mat

end ExactPenalty
