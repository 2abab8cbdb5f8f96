import Mathlib
import ExactPenalty.Proofs.Linear
import ExactPenalty.Steering

/-!
# Minimisers of quadratic programs

A solver of quadratic programs comes from outside, so what a program is solved by has to be said
before anything can be proved about the steps that rest on it.

## What is here

* `FeasibleSet.Contains` — the points of a set, and that the sets are convex (`Contains.along`).
* `QuadraticProgram.IsMinimizer` — the points that solve a program.  Moving from a minimiser towards
  any other point of the set does not descend (`IsMinimizer.gradient_nonneg`); this is the only fact
  about minimisers that the theory of steering uses.  For a convex program it also suffices
  (`isMinimizer_of_gradient_nonneg`).
* `exists_isMinimizer_of_box`, `exists_isMinimizer_of_simplex` — over a box with finite bounds, and over
  the simplex, there is a minimiser.
* `QpService.ExactOnBoxes`, `QpService.AnswersBoxes` — the two halves of an exact service: what it
  answers is a minimiser, and it does answer.  Both are asked of programs over boxes that have a
  minimiser at all, so `QpService.exact` has both.
* `QpService.SolvesSimplices` — both halves at once, for convex programs over the simplex.
-/

set_option autoImplicit false

namespace ExactPenalty

open Linear Matrix

variable {m : Nat}

/-! ## Sets -/

namespace FeasibleSet

/-- The points of a set. -/
def Contains : FeasibleSet ℝ m → Vector ℝ m → Prop
  | box lower upper, y => ∀ i, (lower.get i).AtMost (y.get i) ∧ (upper.get i).AtLeast (y.get i)
  | simplex, y => (∀ i, 0 ≤ y.get i) ∧ ∑ i, y.get i = 1

/-- The points between two points of a set belong to it. -/
theorem Contains.along {set : FeasibleSet ℝ m} {y z : Vector ℝ m} (hy : set.Contains y)
    (hz : set.Contains z) {t : ℝ} (h0 : 0 ≤ t) (h1 : t ≤ 1) :
    set.Contains (along y (z - y) t) := by
  have hget (i : Fin m) :
      (Linear.along y (z - y) t).get i = (1 - t) * y.get i + t * z.get i := by
    rw [get_along, get_sub, Pi.add_apply, Pi.smul_apply, Pi.sub_apply, smul_eq_mul]
    ring
  cases set with
  | box lower upper =>
    intro i
    rw [hget]
    have hmin : min (y.get i) (z.get i) ≤ (1 - t) * y.get i + t * z.get i := by
      nlinarith [min_le_left (y.get i) (z.get i), min_le_right (y.get i) (z.get i)]
    have hmax : (1 - t) * y.get i + t * z.get i ≤ max (y.get i) (z.get i) := by
      nlinarith [le_max_left (y.get i) (z.get i), le_max_right (y.get i) (z.get i)]
    refine ⟨?_, ?_⟩
    · rcases min_choice (y.get i) (z.get i) with h | h
      · exact (hy i).1.mono (h.ge.trans hmin)
      · exact (hz i).1.mono (h.ge.trans hmin)
    · rcases max_choice (y.get i) (z.get i) with h | h
      · exact (hy i).2.mono (hmax.trans h.le)
      · exact (hz i).2.mono (hmax.trans h.le)
  | simplex =>
    refine ⟨fun i ↦ ?_, ?_⟩
    · rw [hget]
      exact add_nonneg (mul_nonneg (sub_nonneg.2 h1) (hy.1 i)) (mul_nonneg h0 (hz.1 i))
    · simp only [hget]
      rw [Finset.sum_add_distrib, ← Finset.mul_sum, ← Finset.mul_sum, hy.2, hz.2]
      ring

end FeasibleSet

/-! ## Minimisers -/

namespace QuadraticProgram

/-- The point lies in the set, and no other point of the set has a lower objective. -/
structure IsMinimizer (qp : QuadraticProgram ℝ m) (y : Vector ℝ m) : Prop where
  contains : qp.feasible.Contains y
  le : ∀ z, qp.feasible.Contains z → qp.objective y ≤ qp.objective z

/-- The gradient of the objective of a program with a symmetric matrix. -/
noncomputable def gradient (qp : QuadraticProgram ℝ m) (y : Vector ℝ m) : Fin m → ℝ :=
  qp.hessian.toMatrix *ᵥ y.get + qp.linear.get

theorem objective_eq (qp : QuadraticProgram ℝ m) (y : Vector ℝ m) :
    qp.objective y
      = 1 / 2 * (y.get ⬝ᵥ qp.hessian.toMatrix *ᵥ y.get) + qp.linear.get ⬝ᵥ y.get := by
  rw [objective, dot_eq, dot_eq, Mat.get_mulVec]
  norm_num

/-- The objective along a line is a quadratic function of the step. -/
theorem objective_along (qp : QuadraticProgram ℝ m) (hsymm : qp.hessian.toMatrix.IsSymm)
    (y d : Vector ℝ m) (t : ℝ) :
    qp.objective (along y d t) = qp.objective y + t * (qp.gradient y ⬝ᵥ d.get)
      + t ^ 2 / 2 * (d.get ⬝ᵥ qp.hessian.toMatrix *ᵥ d.get) := by
  have hswap : y.get ⬝ᵥ qp.hessian.toMatrix *ᵥ d.get = d.get ⬝ᵥ qp.hessian.toMatrix *ᵥ y.get :=
    Mat.dotProduct_mulVec_comm hsymm _ _
  have hgrad : qp.gradient y ⬝ᵥ d.get
      = d.get ⬝ᵥ qp.hessian.toMatrix *ᵥ y.get + qp.linear.get ⬝ᵥ d.get := by
    rw [gradient, add_dotProduct, dotProduct_comm d.get]
  rw [objective_eq, objective_eq, get_along, hgrad]
  simp only [mulVec_add, mulVec_smul, add_dotProduct, dotProduct_add, smul_dotProduct,
    dotProduct_smul, smul_eq_mul, hswap]
  ring

/-- A quadratic function that is nonnegative just after zero does not start downhill. -/
theorem slope_nonneg_of_quadratic {a b : ℝ}
    (h : ∀ t : ℝ, 0 ≤ t → t ≤ 1 → 0 ≤ t * a + t ^ 2 / 2 * b) : 0 ≤ a := by
  by_contra ha
  push Not at ha
  -- a step so short that the quadratic term cannot make up for the linear one
  let t := min 1 (-a / (|b| + 1))
  have hb : 0 < |b| + 1 := by positivity
  have ht : 0 < t := lt_min one_pos (div_pos (neg_pos.2 ha) hb)
  have htb : t * |b| < -a := by
    have := (le_div_iff₀ hb).1 (min_le_right 1 (-a / (|b| + 1)))
    change t * (|b| + 1) ≤ -a at this
    nlinarith
  have hq := h t ht.le (min_le_left _ _)
  nlinarith [le_abs_self b, mul_pos ht ht]

/-- **Moving from a minimiser towards another point of the set does not descend.** -/
theorem IsMinimizer.gradient_nonneg {qp : QuadraticProgram ℝ m} {y z : Vector ℝ m}
    (hy : qp.IsMinimizer y) (hsymm : qp.hessian.toMatrix.IsSymm) (hz : qp.feasible.Contains z) :
    0 ≤ qp.gradient y ⬝ᵥ (z.get - y.get) := by
  refine slope_nonneg_of_quadratic
    (b := (z - y).get ⬝ᵥ qp.hessian.toMatrix *ᵥ (z - y).get) fun t h0 h1 ↦ ?_
  have hle := hy.le _ (hy.contains.along hz h0 h1)
  rw [qp.objective_along hsymm, get_sub] at hle
  rw [get_sub]
  linarith

/-- A point of the set from which no direction into the set descends is a minimiser, if the matrix is
positive semidefinite. -/
theorem isMinimizer_of_gradient_nonneg {qp : QuadraticProgram ℝ m} {y : Vector ℝ m}
    (hqp : qp.hessian.toMatrix.PosSemidef) (hy : qp.feasible.Contains y)
    (hgrad : ∀ z, qp.feasible.Contains z → 0 ≤ qp.gradient y ⬝ᵥ (z.get - y.get)) :
    qp.IsMinimizer y := by
  refine ⟨hy, fun z hz ↦ ?_⟩
  have hsymm : qp.hessian.toMatrix.IsSymm := Mat.isSymm_of_posSemidef hqp
  have hz' : along y (z - y) 1 = z :=
    ext_get fun i ↦ by rw [get_along, one_smul, get_sub, add_sub_cancel]
  have hcurv := hqp.dotProduct_mulVec_nonneg (z - y).get
  rw [star_trivial] at hcurv
  have hline := qp.objective_along hsymm y (z - y) 1
  rw [hz', get_sub] at hline
  rw [get_sub] at hcurv
  linarith [hgrad z hz]

/-- Over a compact set with a point there is a minimiser. -/
theorem exists_isMinimizer_of_isCompact {qp : QuadraticProgram ℝ m} {K : Set (Fin m → ℝ)} (hK : IsCompact K)
    (hne : K.Nonempty) (hmem : ∀ y : Vector ℝ m, qp.feasible.Contains y ↔ y.get ∈ K) :
    ∃ y, qp.IsMinimizer y := by
  let f : (Fin m → ℝ) → ℝ := fun v ↦
    1 / 2 * (v ⬝ᵥ qp.hessian.toMatrix *ᵥ v) + qp.linear.get ⬝ᵥ v
  have hcont : Continuous f :=
    (continuous_const.mul (continuous_id.dotProduct (continuous_const.matrix_mulVec continuous_id))).add
      (continuous_const.dotProduct continuous_id)
  obtain ⟨v, hv, hmin⟩ := hK.exists_isMinOn hne hcont.continuousOn
  refine ⟨Vector.ofFn v, (hmem _).2 ((get_ofFn_eq v).symm ▸ hv), fun z hz ↦ ?_⟩
  rw [objective_eq, objective_eq, get_ofFn_eq]
  exact hmin ((hmem z).1 hz)

/-- Over a box with finite bounds there is a minimiser. -/
theorem exists_isMinimizer_of_box (qp : QuadraticProgram ℝ m) (lo hi : Fin m → ℝ) (h : lo ≤ hi)
    (hbox : qp.feasible = .box (Vector.ofFn fun i ↦ .finite (lo i))
      (Vector.ofFn fun i ↦ .finite (hi i))) :
    ∃ y, qp.IsMinimizer y := by
  refine exists_isMinimizer_of_isCompact isCompact_Icc (Set.nonempty_Icc.2 h) fun y ↦ ?_
  rw [hbox]
  simp only [FeasibleSet.Contains, get_ofFn, Extended.atMost_finite, Extended.atLeast_finite,
    Set.mem_Icc, Pi.le_def]
  exact forall_and

/-- Over the simplex there is a minimiser. -/
theorem exists_isMinimizer_of_simplex {qp : QuadraticProgram ℝ m} (hm : 0 < m)
    (hsimplex : qp.feasible = .simplex) : ∃ y, qp.IsMinimizer y := by
  refine exists_isMinimizer_of_isCompact (isCompact_stdSimplex ℝ (Fin m))
    ⟨_, single_mem_stdSimplex ℝ ⟨0, hm⟩⟩ fun y ↦ ?_
  rw [hsimplex]
  exact Iff.rfl

end QuadraticProgram

/-! ## Services -/

namespace QpService

variable {σ : Type}

/-- What the service answers to a program over a box that has a minimiser is a minimiser. -/
def ExactOnBoxes (solve : QpService σ ℝ) : Prop :=
  ∀ {m : Nat} {qp : QuadraticProgram ℝ m} {lower upper : Vector (Extended ℝ) m} {s : σ}
    {y : Vector ℝ m}, qp.feasible = .box lower upper → (∃ z, qp.IsMinimizer z) →
    (solve qp s).1 = .ok y → qp.IsMinimizer y

/-- The service answers every program over a box that has a minimiser. -/
def AnswersBoxes (solve : QpService σ ℝ) : Prop :=
  ∀ {m : Nat} {qp : QuadraticProgram ℝ m} {lower upper : Vector (Extended ℝ) m} (s : σ),
    qp.feasible = .box lower upper → (∃ z, qp.IsMinimizer z) → ∃ y, (solve qp s).1 = .ok y

/-- The service answers every convex program over the simplex that has a minimiser, and with a minimiser. -/
def SolvesSimplices (solve : QpService σ ℝ) : Prop :=
  ∀ {m : Nat} {qp : QuadraticProgram ℝ m} (s : σ), qp.feasible = .simplex → qp.hessian.toMatrix.PosSemidef →
    (∃ z, qp.IsMinimizer z) → ∃ y, (solve qp s).1 = .ok y ∧ qp.IsMinimizer y

open Classical in
/-- Some minimiser, if there is one. -/
noncomputable def exact : QpService Unit ℝ := fun {_} qp s ↦
  (if h : ∃ y, qp.IsMinimizer y then .ok h.choose else .error .infeasible, s)

theorem exact_exactOnBoxes : exact.ExactOnBoxes := by
  intro m qp lower upper s y _ hex h
  simp only [exact, dif_pos hex, Except.ok.injEq] at h
  exact h ▸ hex.choose_spec

theorem exact_answersBoxes : exact.AnswersBoxes := by
  intro m qp lower upper s _ hex
  exact ⟨hex.choose, by simp only [exact, dif_pos hex]⟩

theorem exact_solvesSimplices : exact.SolvesSimplices := by
  intro m qp s _ _ hex
  exact ⟨hex.choose, by simp only [exact, dif_pos hex], hex.choose_spec⟩

end QpService

end ExactPenalty
