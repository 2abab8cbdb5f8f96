import Mathlib
import ExactPenalty.Proofs.Linear
import ExactPenalty.Steering

/-!
# The violation, constraint by constraint

The library sums violations over the two lists of constraints, and the steering model numbers all
constraints through, inequalities first.  This file writes everything about the violation as a sum
over that numbering.  Constraint `k` contributes `max(v, 0)` or `|v|` at the value `v`, which is the
largest `y v` over the multipliers `y` in `[0, 1]` or in `[−1, 1]`; the gradient of the violation is
the combination of the gradients with one such multiplier each.

## What is here

* `Observation.violationAt`, `Observation.multiplierAt` — the violation of one constraint, and the
  multiplier that the gradient of the violation uses.
* `Observation.IsMultiplier` — the multipliers a dual program may choose from, and
  `sum_mul_le_of_isMultiplier`, `sum_multiplierAt_mul` — the violation is the largest `yᵀ v`.
* `tvL1_eq_sum`, `linearizedViolation_eq_sum`, `get_violationGrad`, `get_penaltyGradAt` — the quantities
  of the library.
-/

set_option autoImplicit false

namespace ExactPenalty

open Linear Matrix

variable {n : Nat}

/-! ## Sums over two lists -/

/-- A sum over a list that tells apart the entries from its first part and those from the second. -/
theorem sum_append_ite {α M : Type} [AddCommMonoid M] (F G : α → M) (l₁ l₂ : List α) :
    ∑ k : Fin (l₁ ++ l₂).length,
        (if k.val < l₁.length then F ((l₁ ++ l₂).get k) else G ((l₁ ++ l₂).get k))
      = (l₁.map F).sum + (l₂.map G).sum := by
  induction l₁ with
  | nil => simp
  | cons a l₁ ih =>
    show ∑ k : Fin ((l₁ ++ l₂).length + 1), _ = _
    rw [Fin.sum_univ_succ]
    simp only [List.map_cons, List.sum_cons, List.length_cons, add_assoc, ← ih]
    congr 1
    refine Finset.sum_congr rfl fun k _ ↦ ?_
    simp only [Fin.val_succ, Nat.add_lt_add_iff_right]
    rfl

/-- Adding up a list one entry after the other is adding its sum. -/
theorem get_foldl {α : Type} (l : List α) (f : Vector ℝ n → α → Vector ℝ n) (g : α → Fin n → ℝ)
    (hf : ∀ acc c, (f acc c).get = acc.get + g c) (a : Vector ℝ n) :
    (l.foldl f a).get = a.get + (l.map g).sum := by
  induction l generalizing a with
  | nil => simp
  | cons c l ih => rw [List.foldl_cons, ih, hf, List.map_cons, List.sum_cons, add_assoc]

namespace Observation

variable (o : Observation ℝ n)

/-! ## One constraint -/

/-- Constraint number `k`, inequalities first. -/
def constraint (k : Fin o.constraints.length) : Constraint ℝ n := o.constraints.get k

/-- The violation of constraint `k` where its value is `v`. -/
noncomputable def violationAt (k : Fin o.constraints.length) (v : ℝ) : ℝ :=
  if k.val < o.ineq.length then max v 0 else |v|

/-- The slope of the violation of constraint `k` where its value is `v`, and zero at zero. -/
noncomputable def multiplierAt (k : Fin o.constraints.length) (v : ℝ) : ℝ :=
  if k.val < o.ineq.length then (if 0 < v then 1 else 0)
  else if 0 < v then 1 else if v < 0 then -1 else 0

/-- One number for every constraint, in `[0, 1]` for an inequality and in `[−1, 1]` for an
equality. -/
def IsMultiplier (y : Fin o.constraints.length → ℝ) : Prop :=
  ∀ k, (if k.val < o.ineq.length then 0 else -1) ≤ y k ∧ y k ≤ 1

theorem isMultiplier_multiplierAt (v : Fin o.constraints.length → ℝ) :
    o.IsMultiplier fun k ↦ o.multiplierAt k (v k) := by
  intro k
  show _ ≤ o.multiplierAt k (v k) ∧ o.multiplierAt k (v k) ≤ 1
  rw [multiplierAt]
  split_ifs <;> norm_num

theorem multiplierAt_mul (k : Fin o.constraints.length) (v : ℝ) :
    o.multiplierAt k v * v = o.violationAt k v := by
  rw [multiplierAt, violationAt]
  split_ifs with _ hpos hpos hneg
  · rw [max_eq_left hpos.le, one_mul]
  · rw [max_eq_right (not_lt.1 hpos), zero_mul]
  · rw [abs_of_pos hpos, one_mul]
  · rw [abs_of_neg hneg, neg_one_mul]
  · rw [le_antisymm (not_lt.1 hpos) (not_lt.1 hneg), abs_zero, mul_zero]

theorem mul_le_violationAt {y : Fin o.constraints.length → ℝ} (hy : o.IsMultiplier y)
    (k : Fin o.constraints.length) (v : ℝ) : y k * v ≤ o.violationAt k v := by
  obtain ⟨hlo, hhi⟩ := hy k
  rw [violationAt]
  split_ifs at hlo ⊢
  · rcases le_total 0 v with hv | hv
    · exact (mul_le_of_le_one_left hv hhi).trans (le_max_left _ _)
    · exact (mul_nonpos_of_nonneg_of_nonpos hlo hv).trans (le_max_right _ _)
  · calc y k * v ≤ |y k * v| := le_abs_self _
      _ = |y k| * |v| := abs_mul _ _
      _ ≤ |v| := mul_le_of_le_one_left (abs_nonneg v) (abs_le.2 ⟨hlo, hhi⟩)

/-! ## All constraints -/

/-- No multipliers give more than the violation … -/
theorem sum_mul_le_of_isMultiplier {y : Fin o.constraints.length → ℝ} (hy : o.IsMultiplier y)
    (v : Fin o.constraints.length → ℝ) : y ⬝ᵥ v ≤ ∑ k, o.violationAt k (v k) :=
  Finset.sum_le_sum fun k _ ↦ o.mul_le_violationAt hy k (v k)

/-- … and some give just that. -/
theorem sum_multiplierAt_mul (v : Fin o.constraints.length → ℝ) :
    (fun k ↦ o.multiplierAt k (v k)) ⬝ᵥ v = ∑ k, o.violationAt k (v k) :=
  Finset.sum_congr rfl fun k _ ↦ o.multiplierAt_mul k (v k)

/-- The constraint values. -/
noncomputable def valueVec (k : Fin o.constraints.length) : ℝ := (o.constraint k).value

/-- The constraint gradients, one column each. -/
theorem toMatrix_jacobian (i : Fin n) (k : Fin o.constraints.length) :
    o.jacobian.toMatrix i k = (o.constraint k).grad.get i := by
  simp [jacobian, Mat.ofColumns, constraint, get_eq]

theorem jacobian_transpose_mulVec (d : Fin n → ℝ) (k : Fin o.constraints.length) :
    (o.jacobian.toMatrixᵀ *ᵥ d) k = (o.constraint k).grad.get ⬝ᵥ d := by
  show ∑ i, o.jacobian.toMatrix i k * d i = _
  simp only [toMatrix_jacobian]
  rfl

theorem jacobian_mulVec_dotProduct (z : Fin o.constraints.length → ℝ) (d : Fin n → ℝ) :
    o.jacobian.toMatrix *ᵥ z ⬝ᵥ d = z ⬝ᵥ o.jacobian.toMatrixᵀ *ᵥ d := by
  rw [dotProduct_mulVec, vecMul_transpose]

/-- The values of the constraints linearised at the point, after a displacement. -/
noncomputable def linearizedVec (d : Fin n → ℝ) : Fin o.constraints.length → ℝ :=
  o.valueVec + o.jacobian.toMatrixᵀ *ᵥ d

theorem linearized_constraint (d : Vector ℝ n) (k : Fin o.constraints.length) :
    (o.constraint k).linearized d = o.linearizedVec d.get k := by
  rw [linearizedVec, Pi.add_apply, jacobian_transpose_mulVec, Constraint.linearized, plainDot_eq]
  rfl

theorem violationL1_eq_sum (f : Constraint ℝ n → ℝ) :
    violationL1 (o.ineq.map f) (o.eq.map f) = ∑ k, o.violationAt k (f (o.constraint k)) := by
  have hineq : ((fun v ↦ Scalar.larger v 0) ∘ f) = fun c ↦ max (f c) 0 :=
    funext fun c ↦ Scalar.larger_real _ _
  rw [violationL1, List.map_map, List.map_map, hineq]
  simp only [violationAt]
  rw [← List.sum_eq_foldl, ← List.sum_eq_foldl]
  exact (sum_append_ite (fun c ↦ max (f c) 0) (fun c ↦ |f c|) o.ineq o.eq).symm

theorem tvL1_eq_sum : o.tvL1 = ∑ k, o.violationAt k (o.valueVec k) :=
  o.violationL1_eq_sum fun c ↦ c.value

theorem linearizedViolation_eq_sum (d : Vector ℝ n) :
    o.linearizedViolation d true = ∑ k, o.violationAt k (o.linearizedVec d.get k) := by
  rw [linearizedViolation, if_pos rfl, violationL1_eq_sum]
  exact Finset.sum_congr rfl fun k _ ↦ by rw [linearized_constraint]

section IsMultiplier

variable {o} {y : Fin o.constraints.length → ℝ}

/-- Multipliers bound the violation from below … -/
theorem dotProduct_valueVec_le_tvL1 (hy : o.IsMultiplier y) : y ⬝ᵥ o.valueVec ≤ o.tvL1 := by
  rw [tvL1_eq_sum]
  exact o.sum_mul_le_of_isMultiplier hy _

/-- … and the linearised violation after any displacement. -/
theorem dotProduct_linearizedVec_le_linearizedViolation (hy : o.IsMultiplier y) (d : Vector ℝ n) :
    y ⬝ᵥ o.linearizedVec d.get ≤ o.linearizedViolation d true := by
  rw [linearizedViolation_eq_sum]
  exact o.sum_mul_le_of_isMultiplier hy _

end IsMultiplier

/-- The gradient of the violation combines the constraint gradients with the multipliers of the
constraint values. -/
theorem get_violationGrad :
    o.violationGrad.get = o.jacobian.toMatrix *ᵥ fun k ↦ o.multiplierAt k (o.valueVec k) := by
  let ofIneq (c : Constraint ℝ n) : Fin n → ℝ := (if 0 < c.value then (1 : ℝ) else 0) • c.grad.get
  let ofEq (c : Constraint ℝ n) : Fin n → ℝ :=
    (if 0 < c.value then (1 : ℝ) else if c.value < 0 then -1 else 0) • c.grad.get
  have hfold : o.violationGrad.get = (o.ineq.map ofIneq).sum + (o.eq.map ofEq).sum := by
    rw [violationGrad, get_foldl _ _ ofEq, get_foldl _ _ ofIneq]
    · rw [get_replicate_zero, zero_add]
    · intro acc c
      by_cases hpos : 0 < c.value <;> simp [ofIneq, hpos]
    · intro acc c
      by_cases hpos : 0 < c.value
      · simp [ofEq, hpos]
      · by_cases hneg : c.value < 0 <;> simp [ofEq, hpos, hneg, sub_eq_add_neg]
  rw [hfold, ← sum_append_ite, mulVec_eq_sum]
  refine Finset.sum_congr rfl fun k _ ↦ ?_
  have hcol : o.jacobian.toMatrixᵀ k = (o.constraint k).grad.get :=
    funext fun i ↦ o.toMatrix_jacobian i k
  rw [op_smul_eq_smul, hcol]
  show ite _ _ _ = o.multiplierAt k (o.valueVec k) • (o.constraint k).grad.get
  by_cases hk : k.val < o.ineq.length
  · rw [if_pos hk, show o.multiplierAt k (o.valueVec k) = _ from if_pos hk]
    rfl
  · rw [if_neg hk, show o.multiplierAt k (o.valueVec k) = _ from if_neg hk]
    rfl

theorem get_penaltyGradAt (μ : ℝ) :
    (o.penaltyGradAt μ).get
      = μ • o.grad.get + o.jacobian.toMatrix *ᵥ fun k ↦ o.multiplierAt k (o.valueVec k) := by
  rw [penaltyGradAt, get_add, get_scale, get_violationGrad]

end Observation

end ExactPenalty
