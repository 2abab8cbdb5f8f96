import Mathlib
import ExactPenalty.Linear.Elimination
import ExactPenalty.Proofs.Linear.Folds
import ExactPenalty.Quadratic.Reduced

/-!
# Elimination is exact

In exact arithmetic elimination solves every regular system.  Exchanging two rows and subtracting a
multiple of one row from another neither change the solutions nor make a regular matrix singular
(`LinearSystem.Leads`), whichever rows are taken.  What the choice of the pivot is for is the shape: the
entry of largest magnitude can only be zero if all below it are, so after its round a column is clear below
the diagonal, also where the round does nothing (`isClearedTo_round`).

A regular matrix that is clear below the diagonal has no zero on it, and then the unknowns can be found
from the last one to the first.

## What is here

* `LinearMethod.IsExact` — what is asked of a method that solves linear systems.
* `LinearSystem.pivotRow_spec`, `LinearSystem.leads_triangular`, `LinearSystem.isClearedTo_triangular` — the
  rounds of elimination.
* `LinearSystem.exists_backSubstitute?` — the way back.
* `solveLinear?_isExact` — both together.
-/

set_option autoImplicit false

namespace ExactPenalty

open Linear Matrix

variable {k : Nat}

/-- The method finds the solution of every regular system. -/
def LinearMethod.IsExact (solve : LinearMethod ℝ) : Prop :=
  ∀ {k : Nat} (a : Mat ℝ k k) (b : Vector ℝ k), a.toMatrix.det ≠ 0 →
    ∃ x, solve a b = some x ∧ a.toMatrix *ᵥ x.get = b.get

/-- It finds the only one. -/
theorem LinearMethod.IsExact.eq_some {solve : LinearMethod ℝ} (hsolve : solve.IsExact) {a : Mat ℝ k k}
    {b x : Vector ℝ k} (ha : a.toMatrix.det ≠ 0) (hx : a.toMatrix *ᵥ x.get = b.get) : solve a b = some x := by
  obtain ⟨y, hy, hsolved⟩ := hsolve a b ha
  have hinjective : Function.Injective a.toMatrix.mulVec :=
    mulVec_injective_iff_isUnit.2 ((isUnit_iff_isUnit_det _).2 ha.isUnit)
  rw [hy, ext_get (congrFun (hinjective (hsolved.trans hx.symm)))]

namespace LinearSystem

variable {s s' s'' : LinearSystem ℝ k} {c : Fin k}

/-! ## Solutions -/

/-- The vector satisfies all equations. -/
def IsSolvedBy (s : LinearSystem ℝ k) (x : Fin k → ℝ) : Prop := ∀ i, (s.matrix.get i).get ⬝ᵥ x = s.rhs.get i

theorem isSolvedBy_iff (s : LinearSystem ℝ k) {x : Fin k → ℝ} :
    s.IsSolvedBy x ↔ s.matrix.toMatrix *ᵥ x = s.rhs.get := funext_iff.symm

/-- Every solution of the second system solves the first one, and it is regular if the first one is. -/
structure Leads (s s' : LinearSystem ℝ k) : Prop where
  solves : ∀ x, s'.IsSolvedBy x → s.IsSolvedBy x
  regular : s.matrix.toMatrix.det ≠ 0 → s'.matrix.toMatrix.det ≠ 0

theorem Leads.refl (s : LinearSystem ℝ k) : s.Leads s := ⟨fun _ ↦ id, id⟩

theorem Leads.trans (h : s.Leads s') (h' : s'.Leads s'') : s.Leads s'' :=
  ⟨fun x hx ↦ h.solves x (h'.solves x hx), fun hs ↦ h'.regular (h.regular hs)⟩

/-! ## Pivots -/

/-- **The pivot row** lies on or below the diagonal, and no entry there has a larger magnitude. -/
theorem pivotRow_spec (s : LinearSystem ℝ k) (c : Fin k) :
    c ≤ s.pivotRow c ∧
      ∀ i, c ≤ i → |(s.matrix.get i).get c| ≤ |(s.matrix.get (s.pivotRow c)).get c| := by
  have hloop := foldl_invariant (n := k) (α := Fin k) (a := c)
    (P := fun t best ↦ c ≤ best ∧ |(s.matrix.get c).get c| ≤ |(s.matrix.get best).get c| ∧
      ∀ i : Fin k, i < t → c < i → |(s.matrix.get i).get c| ≤ |(s.matrix.get best).get c|)
    (f := fun best i ↦ if c < i ∧ Scalar.abs ((s.matrix.get best).get c) < Scalar.abs ((s.matrix.get i).get c)
      then i else best)
    ⟨le_rfl, le_rfl, fun i hi ↦ absurd hi (Nat.not_lt_zero _)⟩ fun i best ⟨hle, hfirst, hseen⟩ ↦ by
      have hseen' {j : Fin k} (hj : j < i.val + 1) (hne : j ≠ i) : j.val < i := by
        have hval : j.val ≠ i := fun h ↦ hne (Fin.ext h)
        omega
      split_ifs with hnext
      · obtain ⟨hci, hlt⟩ := hnext
        rw [Scalar.abs_real, Scalar.abs_real] at hlt
        refine ⟨hci.le, hfirst.trans hlt.le, fun j hj hcj ↦ ?_⟩
        by_cases hji : j = i
        · rw [hji]
        · exact (hseen j (hseen' hj hji) hcj).trans hlt.le
      · refine ⟨hle, hfirst, fun j hj hcj ↦ ?_⟩
        by_cases hji : j = i
        · subst hji
          exact not_lt.1 fun hlt ↦ hnext ⟨hcj, hlt⟩
        · exact hseen j (hseen' hj hji) hcj
  obtain ⟨hle, hfirst, hseen⟩ := hloop
  refine ⟨hle, fun i hi ↦ ?_⟩
  rcases hi.eq_or_lt with rfl | hlt
  · exact hfirst
  · exact hseen i i.isLt hlt

theorem get_pivot_matrix (s : LinearSystem ℝ k) (c i : Fin k) :
    (s.pivot c).matrix.get i = s.matrix.get (Equiv.swap c (s.pivotRow c) i) :=
  get_exchanged s.matrix c (s.pivotRow c) i

theorem get_pivot_rhs (s : LinearSystem ℝ k) (c i : Fin k) :
    (s.pivot c).rhs.get i = s.rhs.get (Equiv.swap c (s.pivotRow c) i) :=
  get_exchanged s.rhs c (s.pivotRow c) i

theorem leads_pivot (s : LinearSystem ℝ k) (c : Fin k) : s.Leads (s.pivot c) where
  solves x hx i := by
    have hrow := hx (Equiv.swap c (s.pivotRow c) i)
    rwa [get_pivot_matrix, get_pivot_rhs, Equiv.swap_apply_self] at hrow
  regular hs := by
    have hrows : (s.pivot c).matrix.toMatrix
        = s.matrix.toMatrix.submatrix (Equiv.swap c (s.pivotRow c)) id := by
      ext i j
      rw [Mat.toMatrix_apply, get_pivot_matrix]
      rfl
    rw [hrows, det_permute]
    exact mul_ne_zero (Int.cast_ne_zero.2 (Units.ne_zero _)) hs

/-! ## Clearing a column -/

/-- The multiple of row `c` that is subtracted from row `i`. -/
noncomputable def factor (s : LinearSystem ℝ k) (c i : Fin k) : ℝ :=
  if (s.matrix.get c).get c ≠ 0 ∧ c < i then (s.matrix.get i).get c / (s.matrix.get c).get c else 0

theorem factor_self (s : LinearSystem ℝ k) (c : Fin k) : s.factor c c = 0 :=
  if_neg fun h ↦ h.2.false

theorem get_clearBelow_matrix (s : LinearSystem ℝ k) (c i j : Fin k) :
    ((s.clearBelow c).matrix.get i).get j
      = (s.matrix.get i).get j - s.factor c i * (s.matrix.get c).get j := by
  rw [clearBelow, factor]
  by_cases hpivot : (s.matrix.get c).get c = 0
  · simp [hpivot]
  · by_cases hi : c < i <;> simp [hpivot, hi]

theorem get_clearBelow_rhs (s : LinearSystem ℝ k) (c i : Fin k) :
    (s.clearBelow c).rhs.get i = s.rhs.get i - s.factor c i * s.rhs.get c := by
  rw [clearBelow, factor]
  by_cases hpivot : (s.matrix.get c).get c = 0
  · simp [hpivot]
  · by_cases hi : c < i <;> simp [hpivot, hi]

theorem leads_clearBelow (s : LinearSystem ℝ k) (c : Fin k) : s.Leads (s.clearBelow c) where
  solves x hx := by
    have hrow (i : Fin k) : (s.matrix.get i).get ⬝ᵥ x - s.factor c i * ((s.matrix.get c).get ⬝ᵥ x)
        = s.rhs.get i - s.factor c i * s.rhs.get c := by
      have hi := hx i
      have hcleared : ((s.clearBelow c).matrix.get i).get
          = (s.matrix.get i).get - s.factor c i • (s.matrix.get c).get :=
        funext fun j ↦ get_clearBelow_matrix s c i j
      rwa [hcleared, get_clearBelow_rhs, sub_dotProduct, smul_dotProduct, smul_eq_mul] at hi
    -- Row `c` itself is left alone, so it gives back what was subtracted from the others.
    have hc := hrow c
    rw [factor_self, zero_mul, zero_mul, sub_zero, sub_zero] at hc
    intro i
    have hi := hrow i
    rw [hc] at hi
    exact sub_left_injective hi
  regular hs := by
    have hdet : s.matrix.toMatrix.det = (s.clearBelow c).matrix.toMatrix.det := by
      refine det_eq_of_forall_row_eq_smul_add_const (s.factor c) c (s.factor_self c) fun i j ↦ ?_
      rw [Mat.toMatrix_apply, Mat.toMatrix_apply, Mat.toMatrix_apply, get_clearBelow_matrix,
        get_clearBelow_matrix, factor_self]
      ring
    rwa [← hdet]

/-! ## The rounds of elimination -/

/-- The first columns vanish below the diagonal. -/
def IsClearedTo (s : LinearSystem ℝ k) (t : Nat) : Prop :=
  ∀ i j : Fin k, j < t → j < i → (s.matrix.get i).get j = 0

/-- The pivot comes from a row where the columns before are clear already. -/
theorem isClearedTo_pivot (h : s.IsClearedTo c) : (s.pivot c).IsClearedTo c := by
  intro i j hj hji
  obtain ⟨hle, -⟩ := s.pivotRow_spec c
  rw [get_pivot_matrix]
  refine h _ j hj ?_
  rw [Equiv.swap_apply_def]
  split_ifs
  · exact lt_of_lt_of_le (Fin.lt_def.2 hj) hle
  · exact Fin.lt_def.2 hj
  · exact hji

/-- **A round clears its column**, and leaves those before it clear. -/
theorem isClearedTo_round (h : s.IsClearedTo c) : ((s.pivot c).clearBelow c).IsClearedTo (c + 1) := by
  intro i j hj hji
  have hpivot := isClearedTo_pivot h
  rw [get_clearBelow_matrix]
  rcases Nat.lt_succ_iff_lt_or_eq.1 hj with hbefore | hcolumn
  · rw [hpivot i j hbefore hji, hpivot c j hbefore (Fin.lt_def.2 hbefore), mul_zero, sub_zero]
  · obtain rfl : j = c := Fin.ext hcolumn
    by_cases hzero : ((s.pivot j).matrix.get j).get j = 0
    · have hlargest : |((s.pivot j).matrix.get i).get j| ≤ 0 := by
        rw [get_pivot_matrix, Equiv.swap_apply_left] at hzero
        rw [get_pivot_matrix, ← abs_zero, ← hzero]
        refine (s.pivotRow_spec j).2 _ ?_
        rw [Equiv.swap_apply_def]
        split_ifs
        · exact (s.pivotRow_spec j).1
        · exact le_rfl
        · exact hji.le
      rw [hzero, mul_zero, sub_zero]
      exact abs_nonpos_iff.1 hlargest
    · rw [factor, if_pos ⟨hzero, hji⟩, div_mul_cancel₀ _ hzero, sub_self]

theorem leads_triangular (s : LinearSystem ℝ k) : s.Leads s.triangular :=
  foldl_invariant (P := fun _ s' ↦ s.Leads s') (.refl s) fun c s' h ↦
    h.trans ((s'.leads_pivot c).trans ((s'.pivot c).leads_clearBelow c))

theorem isClearedTo_triangular (s : LinearSystem ℝ k) : s.triangular.IsClearedTo k :=
  foldl_invariant (P := fun t (s' : LinearSystem ℝ k) ↦ s'.IsClearedTo t)
    (fun _ _ h ↦ absurd h (Nat.not_lt_zero _)) fun _ _ h ↦ isClearedTo_round h

/-! ## The way back -/

/-- A regular matrix that is clear below the diagonal has no zero on it. -/
theorem diagonal_ne_zero (h : s.IsClearedTo k) (hdet : s.matrix.toMatrix.det ≠ 0) (i : Fin k) :
    (s.matrix.get i).get i ≠ 0 := by
  have hupper : s.matrix.toMatrix.IsUpperTriangular := fun i j hij ↦ h i j j.isLt hij
  rw [det_of_isUpperTriangular hupper] at hdet
  exact Finset.prod_ne_zero_iff.1 hdet i (Finset.mem_univ i)

/-- The part of an equation from the diagonal on. -/
noncomputable def tailSum (s : LinearSystem ℝ k) (x : Fin k → ℝ) (i : Fin k) : ℝ :=
  ∑ j, if i ≤ j then (s.matrix.get i).get j * x j else 0

theorem dotProduct_eq_tailSum (h : s.IsClearedTo k) (x : Fin k → ℝ) (i : Fin k) :
    (s.matrix.get i).get ⬝ᵥ x = s.tailSum x i := by
  refine Finset.sum_congr rfl fun j _ ↦ ?_
  split_ifs with hij
  · rfl
  · rw [h i j j.isLt (not_le.1 hij), zero_mul]

/-- The unknown on the diagonal is chosen so that its equation holds … -/
theorem tailSum_replaced (s : LinearSystem ℝ k) {i : Fin k} (hi : (s.matrix.get i).get i ≠ 0)
    (x : Vector ℝ k) :
    s.tailSum (replaced x i ((s.rhs.get i - ∑ j, if i < j then (s.matrix.get i).get j * x.get j else 0)
      / (s.matrix.get i).get i)).get i = s.rhs.get i := by
  let known := ∑ j, if i < j then (s.matrix.get i).get j * x.get j else 0
  have hterm (v : ℝ) (j : Fin k) :
      (if i ≤ j then (s.matrix.get i).get j * (replaced x i v).get j else 0)
        = (if i < j then (s.matrix.get i).get j * x.get j else 0)
          + if i = j then (s.matrix.get i).get i * v else 0 := by
    rw [get_replaced]
    rcases lt_trichotomy i j with hlt | rfl | hgt
    · rw [if_pos hlt.le, if_neg hlt.ne', if_pos hlt, if_neg hlt.ne, add_zero]
    · rw [if_pos le_rfl, if_pos rfl, if_neg (lt_irrefl i), if_pos rfl, zero_add]
    · rw [if_neg hgt.not_ge, if_neg hgt.not_gt, if_neg hgt.ne', add_zero]
  rw [tailSum, Finset.sum_congr rfl fun j _ ↦ hterm _ j, Finset.sum_add_distrib, Finset.sum_ite_eq,
    if_pos (Finset.mem_univ i), mul_div_cancel₀ _ hi]
  exact add_sub_cancel known (s.rhs.get i)

/-- … and does not occur in the equations after it. -/
theorem tailSum_replaced_of_lt {i l : Fin k} (h : i < l) (x : Vector ℝ k) (v : ℝ) :
    s.tailSum (replaced x i v).get l = s.tailSum x.get l := by
  refine Finset.sum_congr rfl fun j _ ↦ ?_
  split_ifs with hlj
  · rw [get_replaced, if_neg (h.trans_le hlj).ne']
  · rfl

/-- **The way back.**  A system that is clear below the diagonal and has no zero on it is solved from the
last unknown to the first. -/
theorem exists_backSubstitute? (h : s.IsClearedTo k) (hdiagonal : ∀ i, (s.matrix.get i).get i ≠ 0) :
    ∃ x, s.backSubstitute? = some x ∧ s.IsSolvedBy x.get := by
  have hnone : ¬ Fin.foldl k (fun found i ↦
      found || decide (Scalar.Same ((s.matrix.get i).get i) 0)) false = true := by
    rw [foldl_or_eq_true_iff]
    rintro ⟨i, hi⟩
    exact hdiagonal i (by simpa using hi)
  -- After the rounds from the last unknown down to `t`, the equations from `t` on hold.
  have hrows := foldr_invariant (n := k) (a := s.rhs)
    (P := fun t x ↦ ∀ i : Fin k, t ≤ i → s.tailSum x.get i = s.rhs.get i)
    (f := fun i x ↦ replaced x i ((s.rhs.get i - Fin.foldl k (fun acc j ↦
      if i < j then acc + (s.matrix.get i).get j * x.get j else acc) 0) / (s.matrix.get i).get i))
    (fun i hi ↦ absurd i.isLt (not_lt.2 hi)) fun i x hx l hl ↦ by
      rcases Nat.eq_or_lt_of_le hl with heq | hlt
      · obtain rfl : i = l := Fin.ext heq
        rw [foldl_add_if, zero_add]
        exact s.tailSum_replaced (hdiagonal i) x
      · rw [tailSum_replaced_of_lt (Fin.lt_def.2 hlt)]
        exact hx l hlt
  rw [backSubstitute?, if_neg hnone]
  exact ⟨_, rfl, fun i ↦ (dotProduct_eq_tailSum h _ i).trans (hrows i (Nat.zero_le _))⟩

end LinearSystem

/-- **Elimination is exact**: it solves every regular system. -/
theorem solveLinear?_isExact : LinearMethod.IsExact solveLinear? := by
  intro k a b hdet
  let s : LinearSystem ℝ k := ⟨a, b⟩
  have hcleared := s.isClearedTo_triangular
  obtain ⟨x, hx, hsolved⟩ := LinearSystem.exists_backSubstitute? hcleared
    (LinearSystem.diagonal_ne_zero hcleared (s.leads_triangular.regular hdet))
  have hsolves : s.IsSolvedBy x.get := s.leads_triangular.solves _ hsolved
  exact ⟨x, hx, s.isSolvedBy_iff.1 hsolves⟩

end ExactPenalty
