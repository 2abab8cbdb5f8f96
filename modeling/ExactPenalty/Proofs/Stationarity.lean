import Mathlib
import ExactPenalty.Proofs.Action
import ExactPenalty.Proofs.Quadratic
import ExactPenalty.Stationarity

/-!
# The stationarity measure

The solver minimises the length of a combination of gradients in one metric, the square root of `gᵀ H g`, and
the measure is its length in another one, the norm of `H g`.  If `H` is singular, or the gradients depend on
each other, the weights that solve the program are not unique, and neither is the combination.  The measure
is: two shortest combinations differ by a direction without length, and such a direction is taken to zero
by `H` (`IsShortest.mulVec_eq`).

## What is here

* `Mat.mem_convexHull_columns_iff` — the weights of the simplex make the convex hull of the columns.
* `IsShortest` — the shortest points of a hull; `QuadraticProgram.IsMinimizer.isShortest` says that the
  program finds one.
* `GradientBundle.gradientsAround` — the gradients that take part.
* `GradientBundle.value_measure_cases` — what the measure can be, whatever is answered to the program.
* `stationarity_is_well_defined` — what it is if the solver is exact, and that it is at most the length of the
  current gradient for any other.
-/

set_option autoImplicit false

namespace ExactPenalty

open Linear Matrix

variable {σ : Type} {n p : Nat}

/-! ## Combinations -/

/-- What weights make of the columns of a matrix is the convex hull of these. -/
theorem Mat.mem_convexHull_columns_iff {columns : Vector (Vector ℝ n) p} {v : Fin n → ℝ} :
    v ∈ convexHull ℝ (Set.range fun j ↦ (columns.get j).get) ↔
      ∃ weights : Vector ℝ p, FeasibleSet.simplex.Contains weights ∧
        ((Mat.ofColumns columns).mulVec weights).get = v := by
  have hcolumns : (Set.range fun j ↦ (columns.get j).get)
      = (Mat.ofColumns columns).toMatrix.mulVecLin '' Set.range fun j ↦ Pi.single j 1 := by
    rw [← Set.range_comp]
    refine congrArg Set.range (funext fun j ↦ funext fun i ↦ ?_)
    rw [Function.comp_apply, mulVecLin_apply, mulVec_single_one, Mat.ofColumns, toMatrix_ofFn]
    rfl
  rw [hcolumns, ← LinearMap.image_convexHull, convexHull_rangle_single_eq_stdSimplex]
  constructor
  · rintro ⟨w, hw, rfl⟩
    refine ⟨Vector.ofFn w, ?_, by rw [get_mulVec, get_ofFn_eq, mulVecLin_apply]⟩
    show (Vector.ofFn w).get ∈ stdSimplex ℝ (Fin p)
    rwa [get_ofFn_eq]
  · rintro ⟨weights, hweights, rfl⟩
    exact ⟨weights.get, hweights, by rw [get_mulVec, mulVecLin_apply]⟩

/-- Weights combine columns to a point of their convex hull. -/
theorem Mat.get_mulVec_ofColumns_mem {columns : Vector (Vector ℝ n) p} {weights : Vector ℝ p}
    (hweights : FeasibleSet.simplex.Contains weights) {S : Set (Fin n → ℝ)}
    (hS : ∀ j, (columns.get j).get ∈ S) :
    ((Mat.ofColumns columns).mulVec weights).get ∈ convexHull ℝ S :=
  convexHull_mono (Set.range_subset_iff.2 hS) (mem_convexHull_columns_iff.2 ⟨weights, hweights, rfl⟩)

/-- The point of a convex hull is shortest in the metric of a matrix. -/
structure IsShortest (h : Mat ℝ n n) (S : Set (Fin n → ℝ)) (g : Vector ℝ n) : Prop where
  mem : g.get ∈ convexHull ℝ S
  le : ∀ v ∈ convexHull ℝ S, g.get ⬝ᵥ h.toMatrix *ᵥ g.get ≤ v ⬝ᵥ h.toMatrix *ᵥ v

/-- **Two shortest points are the same up to directions without length**: half of their difference would make
the point between them shorter. -/
theorem IsShortest.mulVec_eq {h : Mat ℝ n n} (hh : h.toMatrix.PosSemidef) {S : Set (Fin n → ℝ)}
    {u v : Vector ℝ n} (hu : IsShortest h S u) (hv : IsShortest h S v) : h.mulVec u = h.mulVec v := by
  have hsymm := Mat.isSymm_of_posSemidef hh
  have hmid : (1 / 2 : ℝ) • u.get + (1 / 2 : ℝ) • v.get ∈ convexHull ℝ S :=
    convex_convexHull ℝ S hu.mem hv.mem (by norm_num) (by norm_num) (by norm_num)
  have hdiff : (u.get - v.get) ⬝ᵥ h.toMatrix *ᵥ (u.get - v.get) = 0 := by
    refine le_antisymm ?_ (hh.dotProduct_mulVec_nonneg _)
    have hmin := hu.le _ hmid
    have hle := hu.le _ hv.mem
    have hge := hv.le _ hu.mem
    simp only [mulVec_sub, mulVec_add, mulVec_smul, dotProduct_sub, dotProduct_add, dotProduct_smul,
      sub_dotProduct, add_dotProduct, smul_dotProduct, smul_eq_mul,
      Mat.dotProduct_mulVec_comm hsymm v.get u.get] at hmin ⊢
    linarith
  have hzero : h.toMatrix *ᵥ u.get - h.toMatrix *ᵥ v.get = 0 := by
    rw [← mulVec_sub]
    exact (hh.dotProduct_mulVec_zero_iff (u.get - v.get)).1 hdiff
  refine ext_get fun i ↦ ?_
  rw [Mat.get_mulVec, Mat.get_mulVec, sub_eq_zero.1 hzero]

/-- The matrix of the program is that of the metric, taken over to the weights. -/
theorem toMatrix_shortestCombination (grads : Vector (Vector ℝ n) p) (h : Mat ℝ n n) :
    (Mat.ofFn fun i j ↦ plainSum fun l : Fin n ↦
        (grads.get i).get l * ((h.mul (.ofColumns grads)).get l).get j : Mat ℝ p p).toMatrix
      = (Mat.ofColumns grads).toMatrixᵀ * (h.toMatrix * (Mat.ofColumns grads).toMatrix) := by
  rw [← Mat.toMatrix_mul, Mat.toMatrix_ofFn]
  ext i j
  rw [of_apply, plainSum_eq, mul_apply, Mat.ofColumns, Mat.toMatrix_ofFn]
  rfl

theorem objective_shortestCombination (grads : Vector (Vector ℝ n) p) (h : Mat ℝ n n) (w : Vector ℝ p) :
    (shortestCombination grads (h.mul (.ofColumns grads))).objective w
      = 1 / 2 * (((Mat.ofColumns grads).mulVec w).get ⬝ᵥ
          h.toMatrix *ᵥ ((Mat.ofColumns grads).mulVec w).get) := by
  rw [QuadraticProgram.objective_eq, shortestCombination]
  dsimp only
  rw [get_replicate_zero, zero_dotProduct, add_zero, Mat.dotProduct_symmetrized_mulVec, toMatrix_shortestCombination,
    ← mulVec_mulVec, ← mulVec_mulVec, dotProduct_mulVec, vecMul_transpose, Mat.get_mulVec]

theorem posSemidef_shortestCombination {h : Mat ℝ n n} (hh : h.toMatrix.PosSemidef)
    (grads : Vector (Vector ℝ n) p) :
    (shortestCombination grads (h.mul (.ofColumns grads))).hessian.toMatrix.PosSemidef := by
  have hgram := hh.conjTranspose_mul_mul_same (Mat.ofColumns grads).toMatrix
  rw [conjTranspose_eq_transpose_of_trivial, Matrix.mul_assoc, ← toMatrix_shortestCombination] at hgram
  rw [shortestCombination, Mat.toMatrix_symmetrized _ (Mat.isSymm_of_posSemidef hgram)]
  exact hgram

/-- **Weights that solve the program combine the gradients to a shortest point of their hull.** -/
theorem QuadraticProgram.IsMinimizer.isShortest {h : Mat ℝ n n} {grads : Vector (Vector ℝ n) p}
    {w : Vector ℝ p} (hw : (shortestCombination grads (h.mul (.ofColumns grads))).IsMinimizer w) :
    IsShortest h (Set.range fun j ↦ (grads.get j).get) ((Mat.ofColumns grads).mulVec w) where
  mem := Mat.mem_convexHull_columns_iff.2 ⟨w, hw.contains, rfl⟩
  le v hv := by
    obtain ⟨w', hw', rfl⟩ := Mat.mem_convexHull_columns_iff.1 hv
    have hle := hw.le w' hw'
    rw [objective_shortestCombination, objective_shortestCombination] at hle
    linarith

/-! ## Samples -/

theorem Observation.penaltyGradAt_sample (o : Observation ℝ n) (μ : ℝ) :
    o.sample.penaltyGradAt μ = o.penaltyGradAt μ := by
  refine ext_get fun i ↦ ?_
  simp [GradientSample.penaltyGradAt, sample, penaltyGradAt]

/-- The elements of a list, in a row. -/
def inRow (gs : List (Vector ℝ n)) : Vector (Vector ℝ n) gs.toArray.size := ⟨gs.toArray, rfl⟩

/-- The sample was taken within the radius of the iterate, but not at it. -/
def GradientSample.IsNear (s : GradientSample ℝ n) (it : Iterate ℝ n) (radius : Extended ℝ) : Prop :=
  radius.AtLeast (norm₂ (s.point - it.point)) ∧ 0 < norm₂ (s.point - it.point)

namespace GradientBundle

variable {b : GradientBundle ℝ n} {it : Iterate ℝ n} {radius : Extended ℝ} {h : Mat ℝ n n}

theorem mem_nearby_iff {g : Vector ℝ n} :
    g ∈ b.nearby it radius ↔ ∃ s ∈ b.samples, s.IsNear it radius ∧ s.penaltyGradAt it.mu = g := by
  rw [nearby, List.mem_filterMap]
  refine exists_congr fun s ↦ and_congr_right fun _ ↦ ?_
  rw [GradientSample.IsNear]
  dsimp only
  split_ifs with h
  · rw [Option.some_inj, and_iff_right h]
  · exact iff_of_false not_false fun h' ↦ h h'.1

/-- The current gradient and those of the samples nearby, weighed with the current penalty parameter. -/
def gradientsAround (b : GradientBundle ℝ n) (it : Iterate ℝ n) (radius : Extended ℝ) : Set (Fin n → ℝ) :=
  insert it.penaltyGrad.get {g | ∃ s ∈ b.samples, s.IsNear it radius ∧ (s.penaltyGradAt it.mu).get = g}

theorem mem_gradientsAround_iff {g : Fin n → ℝ} : g ∈ b.gradientsAround it radius ↔
    ∃ v ∈ it.penaltyGrad :: b.nearby it radius, v.get = g := by
  rw [gradientsAround, Set.mem_insert_iff, List.exists_mem_cons_iff, eq_comm]
  refine or_congr_right ?_
  constructor
  · rintro ⟨s, hs, hnear, rfl⟩
    exact ⟨_, mem_nearby_iff.2 ⟨s, hs, hnear, rfl⟩, rfl⟩
  · rintro ⟨v, hv, rfl⟩
    obtain ⟨s, hs, hnear, rfl⟩ := mem_nearby_iff.1 hv
    exact ⟨s, hs, hnear, rfl⟩

/-! ## The measure -/

/-- The gradients in a row, the current one first. -/
noncomputable def columns (b : GradientBundle ℝ n) (it : Iterate ℝ n) (radius : Extended ℝ) :
    Vector (Vector ℝ n) (it.penaltyGrad :: b.nearby it radius).toArray.size := inRow _

theorem range_columns (b : GradientBundle ℝ n) (it : Iterate ℝ n) (radius : Extended ℝ) :
    (Set.range fun j ↦ ((b.columns it radius).get j).get) = b.gradientsAround it radius := by
  ext g
  rw [mem_gradientsAround_iff, Set.mem_range]
  constructor
  · rintro ⟨j, rfl⟩
    exact ⟨_, List.getElem_mem _, rfl⟩
  · rintro ⟨v, hv, rfl⟩
    obtain ⟨j, hj, rfl⟩ := List.mem_iff_getElem.1 hv
    exact ⟨⟨j, hj⟩, rfl⟩

/-- The program that the measure asks for. -/
noncomputable def program (b : GradientBundle ℝ n) (it : Iterate ℝ n) (h : Mat ℝ n n)
    (radius : Extended ℝ) : QuadraticProgram ℝ (it.penaltyGrad :: b.nearby it radius).toArray.size :=
  shortestCombination (b.columns it radius) (h.mul (.ofColumns (b.columns it radius)))

/-- What the measure can be: the length of the current gradient, if it stands alone or the program has no
answer, and otherwise that or the length of the answered combination, whichever is shorter. -/
theorem value_measure_cases (b : GradientBundle ℝ n) (solve : QpService σ ℝ) (it : Iterate ℝ n)
    (h : Mat ℝ n n) (radius : Extended ℝ) (w : σ) :
    ((b.nearby it radius = [] ∨ ∃ e, (solve (b.program it h radius) w).1 = .error e) ∧
      (b.measure solve it h radius w).1.value = norm₂ (h.mulVec it.penaltyGrad)) ∨
    ∃ weights, (solve (b.program it h radius) w).1 = .ok weights ∧
      (b.measure solve it h radius w).1.value
        = min (norm₂ (h.mulVec ((Mat.ofColumns (b.columns it radius)).mulVec weights)))
            (norm₂ (h.mulVec it.penaltyGrad)) := by
  rw [measure, program, columns]
  dsimp only
  cases b.nearby it radius with
  | nil => exact .inl ⟨.inl rfl, rfl⟩
  | cons other others =>
    dsimp only [inRow]
    rw [Action.bind_apply]
    rcases solve _ w with ⟨e | weights, w'⟩
    · exact .inl ⟨.inr ⟨e, rfl⟩, rfl⟩
    · refine .inr ⟨weights, rfl, ?_⟩
      show Scalar.smaller (norm₂ _) _ = _
      rw [Scalar.smaller_real, Mat.mulVec_mul]

/-- The measure is at most that of the current gradient alone. -/
theorem value_measure_le (b : GradientBundle ℝ n) (solve : QpService σ ℝ) (it : Iterate ℝ n)
    (h : Mat ℝ n n) (radius : Extended ℝ) (w : σ) :
    (b.measure solve it h radius w).1.value ≤ norm₂ (h.mulVec it.penaltyGrad) := by
  rcases b.value_measure_cases solve it h radius w with ⟨-, hvalue⟩ | ⟨weights, -, hvalue⟩
  · exact hvalue.le
  · exact hvalue.trans_le (min_le_right _ _)

theorem exists_isMinimizer_program (b : GradientBundle ℝ n) (it : Iterate ℝ n) (h : Mat ℝ n n)
    (radius : Extended ℝ) : ∃ weights, (b.program it h radius).IsMinimizer weights :=
  QuadraticProgram.exists_isMinimizer_of_simplex (Nat.succ_pos _) rfl

/-- What the gradients around an iterate combine to with weights that solve the program. -/
theorem isShortest_of_isMinimizer {weights : Vector ℝ _} (hw : (b.program it h radius).IsMinimizer weights) :
    IsShortest h (b.gradientsAround it radius) ((Mat.ofColumns (b.columns it radius)).mulVec weights) := by
  rw [← range_columns]
  exact hw.isShortest

theorem exists_isShortest (b : GradientBundle ℝ n) (it : Iterate ℝ n) (h : Mat ℝ n n)
    (radius : Extended ℝ) : ∃ g, IsShortest h (b.gradientsAround it radius) g := by
  obtain ⟨weights, hw⟩ := b.exists_isMinimizer_program it h radius
  exact ⟨_, isShortest_of_isMinimizer hw⟩

/-- **The measure of an exact solver** is the length of any shortest combination, or that of the current
gradient. -/
theorem value_measure_eq {solve : QpService σ ℝ} (hsolve : solve.SolvesSimplices)
    (hh : h.toMatrix.PosSemidef) (w : σ) {g : Vector ℝ n}
    (hg : IsShortest h (b.gradientsAround it radius) g) :
    (b.measure solve it h radius w).1.value
      = min (norm₂ (h.mulVec g)) (norm₂ (h.mulVec it.penaltyGrad)) := by
  obtain ⟨weights, hanswer, hweights⟩ := hsolve w rfl (posSemidef_shortestCombination hh _)
    (b.exists_isMinimizer_program it h radius)
  rcases b.value_measure_cases solve it h radius w with
    ⟨hnone | ⟨e, herror⟩, hvalue⟩ | ⟨weights', hanswer', hvalue⟩
  · have hpoint : g = it.penaltyGrad := by
      have hset : b.gradientsAround it radius = {it.penaltyGrad.get} := by
        ext v
        rw [mem_gradientsAround_iff, hnone]
        simp [eq_comm]
      have hmem := hg.mem
      rw [hset, convexHull_singleton, Set.mem_singleton_iff] at hmem
      exact ext_get (congrFun hmem)
    rw [hvalue, hpoint, min_self]
  · cases hanswer.symm.trans herror
  · obtain rfl := Except.ok.inj (hanswer.symm.trans hanswer')
    rw [hvalue, (isShortest_of_isMinimizer hweights).mulVec_eq hh hg]

/-- The set of gradients is made of the samples nearby: neither their order nor their multiplicity matters,
nor does any other sample. -/
theorem gradientsAround_congr {b' : GradientBundle ℝ n}
    (hnear : ∀ s : GradientSample ℝ n, s.IsNear it radius → (s ∈ b.samples ↔ s ∈ b'.samples)) :
    b.gradientsAround it radius = b'.gradientsAround it radius := by
  refine congrArg (insert it.penaltyGrad.get) (Set.ext fun g ↦ exists_congr fun s ↦ ?_)
  exact and_congr_left fun h ↦ hnear s h.1

/-- In a proper metric the measure vanishes exactly where the gradients can cancel. -/
theorem value_measure_eq_zero_iff {solve : QpService σ ℝ} (hsolve : solve.SolvesSimplices)
    (hh : h.toMatrix.PosDef) (w : σ) :
    (b.measure solve it h radius w).1.value = 0 ↔ 0 ∈ convexHull ℝ (b.gradientsAround it radius) := by
  obtain ⟨g, hg⟩ := b.exists_isShortest it h radius
  rw [value_measure_eq hsolve hh.posSemidef w hg]
  have hlength (v : Vector ℝ n) : norm₂ (h.mulVec v) = 0 ↔ v.get = 0 := by
    rw [norm₂_eq_zero_iff, Mat.get_mulVec]
    exact ⟨eq_zero_of_mulVec_eq_zero hh.det_pos.ne', fun hv ↦ by rw [hv, mulVec_zero]⟩
  constructor
  · intro hzero
    rcases min_choice (norm₂ (h.mulVec g)) (norm₂ (h.mulVec it.penaltyGrad)) with hmin | hmin
    · rw [hmin, hlength] at hzero
      exact hzero ▸ hg.mem
    · rw [hmin, hlength] at hzero
      exact hzero ▸ subset_convexHull ℝ _ (Set.mem_insert _ _)
  · intro hmem
    have hle := hg.le 0 hmem
    rw [mulVec_zero, dotProduct_zero] at hle
    have hzero : g.get = 0 := by
      by_contra hne
      exact absurd (hh.dotProduct_mulVec_pos hne) (not_lt.2 hle)
    rw [(hlength g).2 hzero]
    exact min_eq_left (norm₂_nonneg _)

end GradientBundle

/-- **The stationarity measure is well defined.**  Take a positive semidefinite metric, a bundle, an iterate
and a radius.  Among the convex combinations of the current gradient and those nearby there is a shortest one.
Whichever it is, and whichever exact solver is asked, the measure is its length or that of the current
gradient, so the order and the multiplicity of the samples make no difference, nor do the samples elsewhere.
If the metric is positive definite, the measure vanishes exactly where zero is one of the combinations.  No
solver at all makes it exceed the length of the current gradient. -/
theorem stationarity_is_well_defined {h : Mat ℝ n n} (hh : h.toMatrix.PosSemidef) (b : GradientBundle ℝ n)
    (it : Iterate ℝ n) (radius : Extended ℝ) :
    (∃ g, IsShortest h (b.gradientsAround it radius) g) ∧
    (∀ {σ : Type} {solve : QpService σ ℝ}, solve.SolvesSimplices → ∀ w : σ,
      (∀ g, IsShortest h (b.gradientsAround it radius) g → (b.measure solve it h radius w).1.value
        = min (norm₂ (h.mulVec g)) (norm₂ (h.mulVec it.penaltyGrad))) ∧
      (∀ b' : GradientBundle ℝ n,
        (∀ s : GradientSample ℝ n, s.IsNear it radius → (s ∈ b.samples ↔ s ∈ b'.samples)) →
        ∀ {τ : Type} {solve' : QpService τ ℝ}, solve'.SolvesSimplices → ∀ w' : τ,
          (b.measure solve it h radius w).1.value = (b'.measure solve' it h radius w').1.value) ∧
      (h.toMatrix.PosDef → ((b.measure solve it h radius w).1.value = 0 ↔
        0 ∈ convexHull ℝ (b.gradientsAround it radius)))) ∧
    ∀ {σ : Type} (solve : QpService σ ℝ) (w : σ),
      (b.measure solve it h radius w).1.value ≤ norm₂ (h.mulVec it.penaltyGrad) := by
  obtain ⟨g, hg⟩ := b.exists_isShortest it h radius
  refine ⟨⟨g, hg⟩, fun hsolve w ↦ ⟨fun g hg ↦ ?_, fun b' hnear τ solve' hsolve' w' ↦ ?_, fun hdef ↦ ?_⟩,
    fun solve w ↦ b.value_measure_le solve it h radius w⟩
  · exact GradientBundle.value_measure_eq hsolve hh w hg
  · have hg' : IsShortest h (b'.gradientsAround it radius) g :=
      GradientBundle.gradientsAround_congr hnear ▸ hg
    rw [GradientBundle.value_measure_eq hsolve hh w hg, GradientBundle.value_measure_eq hsolve' hh w' hg']
  · exact GradientBundle.value_measure_eq_zero_iff hsolve hdef w

/-- On the right of the kink of the absolute value, with a sample from its left. -/
noncomputable def kinkBundle : GradientBundle ℝ 1 where
  samples := [⟨.replicate 1 (-1), .replicate 1 (-1), .replicate 1 0⟩]
  capacity := 1

@[inherit_doc kinkBundle]
noncomputable def kinkIterate : Iterate ℝ 1 where
  point := .replicate 1 1
  value := 1
  grad := .replicate 1 1
  ineq := []
  eq := []
  mu := 1

/-- Across the kink the gradients cancel. -/
theorem stationarity_is_well_defined_kink :
    (Mat.identity ℝ 1).toMatrix.PosDef ∧ QpService.exact.SolvesSimplices ∧
    0 ∈ convexHull ℝ (kinkBundle.gradientsAround kinkIterate (.finite 2)) ∧
    (kinkBundle.measure QpService.exact kinkIterate (.identity ℝ 1) (.finite 2) ()).1.value = 0 := by
  have hdef : (Mat.identity ℝ 1).toMatrix.PosDef := Mat.posDef_identity
  have hdistance : norm₂ (.replicate 1 (-1) - kinkIterate.point) = 2 := by
    have hsquare : (-1 - 1 : ℝ) * (-1 - 1) = 2 ^ 2 := by norm_num
    rw [norm₂_eq, get_sub, kinkIterate, dotProduct, Fin.sum_univ_one, Pi.sub_apply, get_replicate,
      get_replicate, hsquare, Real.sqrt_sq two_pos.le]
  have hright : (fun _ ↦ 1 : Fin 1 → ℝ) ∈ kinkBundle.gradientsAround kinkIterate (.finite 2) := by
    refine .inl (funext fun i ↦ ?_)
    rw [Iterate.penaltyGrad, Observation.penaltyGradAt, get_add, get_scale]
    simp [Observation.violationGrad, kinkIterate]
  have hleft : (fun _ ↦ -1 : Fin 1 → ℝ) ∈ kinkBundle.gradientsAround kinkIterate (.finite 2) := by
    refine .inr ⟨_, List.mem_singleton_self _, ⟨hdistance.le, ?_⟩, funext fun i ↦ ?_⟩
    · rw [hdistance]
      exact two_pos
    · rw [GradientSample.penaltyGradAt, get_add, get_scale]
      simp [kinkIterate]
  have hcancel : 0 ∈ convexHull ℝ (kinkBundle.gradientsAround kinkIterate (.finite 2)) := by
    have hzero : (0 : Fin 1 → ℝ) = (1 / 2 : ℝ) • (fun _ ↦ 1) + (1 / 2 : ℝ) • fun _ ↦ -1 := by
      funext i
      norm_num
    rw [hzero]
    exact convex_convexHull ℝ _ (subset_convexHull ℝ _ hright) (subset_convexHull ℝ _ hleft) (by norm_num)
      (by norm_num) (by norm_num)
  obtain ⟨-, hexact, -⟩ := stationarity_is_well_defined hdef.posSemidef kinkBundle kinkIterate (.finite 2)
  obtain ⟨-, -, hvanishes⟩ := hexact QpService.exact_solvesSimplices ()
  exact ⟨hdef, QpService.exact_solvesSimplices, hcancel, (hvanishes hdef).2 hcancel⟩

end ExactPenalty
