import Mathlib
import ExactPenalty.Proofs.Elimination
import ExactPenalty.Proofs.Quadratic

/-!
# The equations of the free coordinates

The linear system that the library solves for the free coordinates of a program is the condition that the
gradient of the objective vanishes there, and over the simplex that it has the same component at all of
them.  So a point that satisfies the condition is found by every exact method, as soon as the system is
regular (`stationary?_eq_some_of_box`, `stationary?_eq_some_of_simplex`).  Whatever the method finds, the
coordinates that are not free stay where they were (`get_of_stationary?`).
-/

set_option autoImplicit false

namespace ExactPenalty

open Linear Matrix

variable {m : Nat}

/-! ## Free coordinates -/

/-- A sum over the places of a list without repetitions is a sum over its elements. -/
theorem sum_get_of_nodup {free : List (Fin m)} (hfree : free.Nodup) (f : Fin m → ℝ) :
    ∑ a, f (free.get a) = ∑ j, if j ∈ free then f j else 0 := by
  have hlist : free.map f = List.ofFn fun a ↦ f (free.get a) := by
    conv_lhs => rw [← List.ofFn_get free, List.map_ofFn]
    rfl
  rw [← List.sum_ofFn, ← hlist, ← List.sum_toFinset f hfree, ← Finset.sum_filter]
  refine Finset.sum_congr (Finset.ext fun j ↦ ?_) fun _ _ ↦ rfl
  simp

namespace QuadraticProgram

variable {qp : QuadraticProgram ℝ m} {free : List (Fin m)} {z w : Vector ℝ m}

theorem get_replaceFree_of_notMem {i : Fin m} (hi : i ∉ free) (value : Fin free.length → ℝ) :
    (replaceFree free z value).get i = z.get i := by
  refine foldl_invariant (P := fun _ (w : Vector ℝ m) ↦ w.get i = z.get i) rfl fun a w hw ↦ ?_
  rw [get_replaced, if_neg fun h : i = free.get a ↦ hi (h ▸ free.get_mem a), hw]

theorem get_replaceFree_get (hfree : free.Nodup) (value : Fin free.length → ℝ) (a : Fin free.length) :
    (replaceFree free z value).get (free.get a) = value a := by
  refine foldl_invariant
    (P := fun t (w : Vector ℝ m) ↦ ∀ a : Fin free.length, a < t → w.get (free.get a) = value a)
    (fun _ h ↦ absurd h (Nat.not_lt_zero _)) (fun b w hw a ha ↦ ?_) a a.isLt
  rw [get_replaced]
  by_cases hab : a = b
  · rw [hab, if_pos rfl]
  · have hlt : a.val < b := lt_of_le_of_ne (Nat.lt_succ_iff.1 ha) fun h ↦ hab (Fin.ext h)
    rw [if_neg fun h ↦ hab (hfree.injective_get h), hw a hlt]

/-- The free coordinates of a point put where they are already. -/
theorem replaceFree_eq (hfree : free.Nodup) (hoff : ∀ i ∉ free, z.get i = w.get i) :
    replaceFree free z (fun a ↦ w.get (free.get a)) = w := by
  refine ext_get fun i ↦ ?_
  by_cases hi : i ∈ free
  · obtain ⟨a, rfl⟩ := List.mem_iff_get.1 hi
    exact get_replaceFree_get hfree _ a
  · rw [get_replaceFree_of_notMem hi, hoff i hi]

/-- The coordinates that are not free stay where they are. -/
theorem get_of_stationary? {solve : LinearMethod ℝ} {total : ℝ}
    (h : qp.stationary? solve free total z = some w) {i : Fin m} (hi : i ∉ free) :
    w.get i = z.get i := by
  rw [stationary?] at h
  split at h
  all_goals
    obtain ⟨x, -, rfl⟩ := Option.map_eq_some_iff.1 h
    exact get_replaceFree_of_notMem hi _

/-! ## The equations -/

theorem reducedRhs_eq (qp : QuadraticProgram ℝ m) (free : List (Fin m)) (z : Vector ℝ m) (i : Fin m) :
    qp.reducedRhs free z i
      = -qp.linear.get i - ∑ j, if j ∈ free then 0 else (qp.hessian.get i).get j * z.get j :=
  foldl_sub_unless free _ _

theorem reducedTotal_eq (free : List (Fin m)) (total : ℝ) (z : Vector ℝ m) :
    reducedTotal free total z = total - ∑ j, if j ∈ free then 0 else z.get j :=
  foldl_sub_unless free _ _

/-- A sum over all coordinates is one over those that are free and one over the others. -/
theorem sum_get_eq_sub (hfree : free.Nodup) (hoff : ∀ i ∉ free, z.get i = w.get i) (f : Fin m → ℝ) :
    ∑ a, f (free.get a) * w.get (free.get a)
      = ∑ j, f j * w.get j - ∑ j, if j ∈ free then 0 else f j * z.get j := by
  rw [sum_get_of_nodup hfree fun j ↦ f j * w.get j, ← Finset.sum_sub_distrib]
  refine Finset.sum_congr rfl fun j _ ↦ ?_
  split_ifs with hj
  · rw [sub_zero]
  · rw [hoff j hj, sub_self]

/-- The equation of a free coordinate, up to the gradient there. -/
theorem sum_reduced_eq (qp : QuadraticProgram ℝ m) (hfree : free.Nodup)
    (hoff : ∀ i ∉ free, z.get i = w.get i) (i : Fin m) :
    ∑ a, (qp.hessian.get i).get (free.get a) * w.get (free.get a)
      = qp.reducedRhs free z i + qp.gradient w i := by
  have hgrad : qp.gradient w i = ∑ j, (qp.hessian.get i).get j * w.get j + qp.linear.get i := rfl
  rw [sum_get_eq_sub hfree hoff fun j ↦ (qp.hessian.get i).get j, reducedRhs_eq, hgrad]
  ring

variable {solve : LinearMethod ℝ}

/-- **Over a box**, an exact method finds the point at which the gradient vanishes over the free
coordinates. -/
theorem stationary?_eq_some_of_box {lower upper : Vector (Extended ℝ) m} {total : ℝ}
    (hbox : qp.feasible = .box lower upper) (hsolve : solve.IsExact) (hfree : free.Nodup)
    (hregular : (qp.reducedMatrix free).toMatrix.det ≠ 0) (hoff : ∀ i ∉ free, z.get i = w.get i)
    (hgrad : ∀ i ∈ free, qp.gradient w i = 0) : qp.stationary? solve free total z = some w := by
  let x : Vector ℝ free.length := Vector.ofFn fun a ↦ w.get (free.get a)
  have hx : (qp.reducedMatrix free).toMatrix *ᵥ x.get
      = (Vector.ofFn fun a ↦ qp.reducedRhs free z (free.get a)).get := by
    funext a
    have hrow := qp.sum_reduced_eq hfree hoff (free.get a)
    rw [hgrad _ (free.get_mem a), add_zero] at hrow
    simpa only [reducedMatrix, Mat.toMatrix_ofFn, mulVec, dotProduct, of_apply, x, get_ofFn] using hrow
  simp only [stationary?, hbox]
  rw [hsolve.eq_some hregular hx, Option.map_some]
  simp only [x, get_ofFn]
  rw [replaceFree_eq hfree hoff]

/-- A row of the bordered matrix applied to a vector: the equation of a free coordinate, and that of the
total. -/
theorem borderedMatrix_mulVec (qp : QuadraticProgram ℝ m) (free : List (Fin m))
    (x : Fin (free.length + 1) → ℝ) :
    (qp.borderedMatrix free).toMatrix *ᵥ x = Fin.snoc (fun a ↦
      ∑ b : Fin free.length, (qp.hessian.get (free.get a)).get (free.get b) * x b.castSucc
        + x (Fin.last _)) (∑ b : Fin free.length, x b.castSucc) := by
  have hrow (a : Fin (free.length + 1)) : ((qp.borderedMatrix free).toMatrix *ᵥ x) a
      = ∑ b : Fin free.length, (qp.borderedMatrix free).toMatrix a b.castSucc * x b.castSucc
        + (qp.borderedMatrix free).toMatrix a (Fin.last _) * x (Fin.last _) := Fin.sum_univ_castSucc _
  funext a
  rw [hrow, borderedMatrix, Mat.toMatrix_ofFn]
  cases a using Fin.lastCases with
  | last => simp
  | cast a => simp

/-- **Over the simplex**, it finds the point of the same total at which the gradient has one component over
the free coordinates. -/
theorem stationary?_eq_some_of_simplex {total ν : ℝ} (hsimplex : qp.feasible = .simplex)
    (hsolve : solve.IsExact) (hfree : free.Nodup) (hregular : (qp.borderedMatrix free).toMatrix.det ≠ 0)
    (hoff : ∀ i ∉ free, z.get i = w.get i) (hgrad : ∀ i ∈ free, qp.gradient w i = ν)
    (htotal : ∑ i, w.get i = total) : qp.stationary? solve free total z = some w := by
  let x : Vector ℝ (free.length + 1) := Vector.ofFn (Fin.snoc (fun a ↦ w.get (free.get a)) (-ν))
  have hx : (qp.borderedMatrix free).toMatrix *ᵥ x.get = (Vector.ofFn fun a : Fin (free.length + 1) ↦
      if ha : a < free.length then qp.reducedRhs free z (free.get ⟨a, ha⟩)
      else reducedTotal free total z).get := by
    rw [borderedMatrix_mulVec]
    funext a
    cases a using Fin.lastCases with
    | last =>
      have hrow := sum_get_eq_sub hfree hoff fun _ ↦ 1
      simp only [one_mul] at hrow
      rw [htotal, ← reducedTotal_eq] at hrow
      simpa [x] using hrow
    | cast a =>
      have hrow := qp.sum_reduced_eq hfree hoff (free.get a)
      rw [hgrad _ (free.get_mem a)] at hrow
      have hrow' : ∑ b, (qp.hessian.get (free.get a)).get (free.get b) * w.get (free.get b) + -ν
          = qp.reducedRhs free z (free.get a) := by rw [hrow, add_neg_cancel_right]
      simpa [x] using hrow'
  simp only [stationary?, hsimplex]
  rw [hsolve.eq_some hregular hx, Option.map_some]
  simp only [x, get_ofFn, Fin.snoc_castSucc]
  rw [replaceFree_eq hfree hoff]

end QuadraticProgram

end ExactPenalty
