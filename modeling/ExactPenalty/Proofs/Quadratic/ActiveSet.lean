import Mathlib
import ExactPenalty.Proofs.Quadratic.Polish

/-!
# The right active set

At a minimiser the gradient of the objective vanishes in every coordinate that sits at no bound of the box;
over the simplex no component of it is below that of a positive weight, so all positive weights have the same
one.  These are the equations that the polish solves.  If its guess of the active set is that of a minimiser
and the system is regular, the minimiser is what the polish finds — and none of its later checks can reject
a point that lies in the set and has the least objective of all.

## What is here

* `QuadraticProgram.IsMinimizer.gradient_eq_zero`, `QuadraticProgram.IsMinimizer.gradient_le` — the gradient
  at a minimiser, over a box and over the simplex.
* `QpMethod.GuessesActiveSet`, `QuadraticProgram.IsRegularOver` — a right guess, and what else it takes.
* `polish_eq_minimizer` — the polish of a right guess.
-/

set_option autoImplicit false

namespace ExactPenalty

open Linear Matrix

variable {m : Nat}

/-! ## The gradient at a minimiser -/

namespace Extended

/-- Above a lower bound that is not met there is room downwards … -/
theorem AtMost.exists_room {e : Extended ℝ} {x : ℝ} (h : e.AtMost x) (hne : e ≠ .finite x) :
    ∃ t > 0, e.AtMost (x - t) := by
  cases e with
  | negInf => exact ⟨1, one_pos, atMost_negInf _⟩
  | finite b =>
    have hlt : b < x := lt_of_le_of_ne h fun heq ↦ hne (heq ▸ rfl)
    exact ⟨x - b, sub_pos.2 hlt, (sub_sub_cancel x b).ge⟩
  | posInf => exact absurd h (not_atMost_posInf x)

/-- … and below an upper bound that is not met there is room upwards. -/
theorem AtLeast.exists_room {e : Extended ℝ} {x : ℝ} (h : e.AtLeast x) (hne : e ≠ .finite x) :
    ∃ t > 0, e.AtLeast (x + t) := by
  cases e with
  | negInf => exact absurd h (not_atLeast_negInf x)
  | finite b =>
    have hlt : x < b := lt_of_le_of_ne h fun heq ↦ hne (heq ▸ rfl)
    exact ⟨b - x, sub_pos.2 hlt, (add_sub_cancel x b).le⟩
  | posInf => exact ⟨1, one_pos, atLeast_posInf _⟩

end Extended

theorem get_replaced_sub (z : Vector ℝ m) (i : Fin m) (x : ℝ) :
    (replaced z i x).get - z.get = Pi.single i (x - z.get i) := by
  funext j
  rw [Pi.sub_apply, get_replaced, Pi.single_apply]
  split_ifs with h
  · rw [h]
  · rw [sub_self]

namespace QuadraticProgram.IsMinimizer

variable {qp : QuadraticProgram ℝ m} {z : Vector ℝ m} {i j : Fin m}

/-- A coordinate of a box that may be moved to another place does not descend on the way. -/
theorem gradient_mul_nonneg (hz : qp.IsMinimizer z) (hsymm : qp.hessian.toMatrix.IsSymm)
    {lower upper : Vector (Extended ℝ) m} (hbox : qp.feasible = .box lower upper) {x : ℝ}
    (hl : (lower.get i).AtMost x) (hu : (upper.get i).AtLeast x) :
    0 ≤ qp.gradient z i * (x - z.get i) := by
  have hmoved : qp.feasible.Contains (replaced z i x) := by
    have hcontains := hz.contains
    rw [hbox] at hcontains ⊢
    intro j
    rw [get_replaced]
    split_ifs with h
    · exact h ▸ ⟨hl, hu⟩
    · exact hcontains j
  have hnonneg := hz.gradient_nonneg hsymm hmoved
  rwa [get_replaced_sub, dotProduct_single] at hnonneg

/-- **Over a box** the gradient at a minimiser vanishes in the coordinates that sit at no bound. -/
theorem gradient_eq_zero (hz : qp.IsMinimizer z) (hsymm : qp.hessian.toMatrix.IsSymm)
    {lower upper : Vector (Extended ℝ) m} (hbox : qp.feasible = .box lower upper)
    (hl : lower.get i ≠ .finite (z.get i)) (hu : upper.get i ≠ .finite (z.get i)) :
    qp.gradient z i = 0 := by
  have hcontains := hz.contains
  rw [hbox] at hcontains
  obtain ⟨hlower, hupper⟩ := hcontains i
  obtain ⟨s, hs, hdown⟩ := hlower.exists_room hl
  obtain ⟨t, ht, hup⟩ := hupper.exists_room hu
  have hfalls := hz.gradient_mul_nonneg hsymm hbox hdown (hupper.mono (sub_le_self _ hs.le))
  have hrises := hz.gradient_mul_nonneg hsymm hbox (hlower.mono (le_add_of_nonneg_right ht.le)) hup
  rw [sub_sub_cancel_left, mul_neg, neg_nonneg] at hfalls
  rw [add_sub_cancel_left] at hrises
  exact le_antisymm (nonpos_of_mul_nonpos_left hfalls hs) (nonneg_of_mul_nonneg_left hrises ht)

/-- **Over the simplex** no component of the gradient is below that of a positive weight. -/
theorem gradient_le (hz : qp.IsMinimizer z) (hsymm : qp.hessian.toMatrix.IsSymm)
    (hsimplex : qp.feasible = .simplex) (hj : 0 < z.get j) (i : Fin m) :
    qp.gradient z j ≤ qp.gradient z i := by
  -- All of the weight `j` is moved to `i`.
  let w : Vector ℝ m := Vector.ofFn (z.get + (Pi.single i (z.get j) - Pi.single j (z.get j)))
  have hw : w.get = z.get + (Pi.single i (z.get j) - Pi.single j (z.get j)) := get_ofFn_eq _
  have hcontains := hz.contains
  rw [hsimplex] at hcontains
  have hmoved : qp.feasible.Contains w := by
    rw [hsimplex]
    refine ⟨fun l ↦ ?_, ?_⟩
    · rw [hw, Pi.add_apply, Pi.sub_apply, Pi.single_apply, Pi.single_apply]
      have hl := hcontains.1 l
      split_ifs with h h' h'
      · linarith
      · linarith
      · rw [h']
        linarith
      · linarith
    · simp only [hw, Pi.add_apply, Pi.sub_apply]
      rw [Finset.sum_add_distrib, Finset.sum_sub_distrib, Finset.sum_pi_single', Finset.sum_pi_single',
        hcontains.2]
      simp
  have hnonneg := hz.gradient_nonneg hsymm hmoved
  rw [hw, add_sub_cancel_left, dotProduct_sub, dotProduct_single, dotProduct_single, ← sub_mul] at hnonneg
  exact sub_nonneg.1 (nonneg_of_mul_nonneg_left hnonneg hj)

end QuadraticProgram.IsMinimizer

/-! ## Guesses -/

/-- The coordinate sits at one of its bounds. -/
def FeasibleSet.SitsAtBound (set : FeasibleSet ℝ m) (z : Vector ℝ m) (i : Fin m) : Prop :=
  set.lowerAt i = .finite (z.get i) ∨ set.upperAt i = .finite (z.get i)

/-- The coordinates that the polish fixes at a bound when it looks at `y` are those that sit there in `z`. -/
structure QpMethod.GuessesActiveSet (method : QpMethod ℝ) (set : FeasibleSet ℝ m) (y z : Vector ℝ m) :
    Prop where
  fixed : ∀ i b, method.fixedAt? set y i = some b → z.get i = b
  free : ∀ i, method.fixedAt? set y i = none → ¬ set.SitsAtBound z i

/-- The linear system of the free coordinates is regular. -/
def QuadraticProgram.IsRegularOver (qp : QuadraticProgram ℝ m) (free : List (Fin m)) : Prop :=
  match qp.feasible with
  | .box _ _ => (qp.reducedMatrix free).toMatrix.det ≠ 0
  | .simplex => (qp.borderedMatrix free).toMatrix.det ≠ 0

namespace QpMethod

variable {method : QpMethod ℝ} {qp : QuadraticProgram ℝ m} {y z : Vector ℝ m}

/-- Over a box, the candidate made with the active set of a minimiser is the minimiser. -/
theorem candidate?_of_box {lower upper : Vector (Extended ℝ) m} (hbox : qp.feasible = .box lower upper)
    (hlinear : LinearMethod.IsExact method.solveLinear) (hsymm : qp.hessian.toMatrix.IsSymm)
    (hz : qp.IsMinimizer z) (hguess : method.GuessesActiveSet qp.feasible y z)
    (hregular : qp.IsRegularOver (method.freeCoordinates qp.feasible y)) :
    method.candidate? qp y = some z := by
  have hdet : (qp.reducedMatrix (method.freeCoordinates qp.feasible y)).toMatrix.det ≠ 0 := by
    simpa only [QuadraticProgram.IsRegularOver, hbox] using hregular
  have hcontains := hz.contains
  rw [hbox] at hcontains
  have hoff (i : Fin m) (hi : i ∉ method.freeCoordinates qp.feasible y) :
      (method.fixedPoint qp.feasible y).get i = z.get i := by
    obtain ⟨b, hb⟩ := Option.ne_none_iff_exists'.1 (mem_freeCoordinates_iff.not.1 hi)
    rw [get_fixedPoint hb, hguess.fixed i b hb]
  refine (candidate?_box_eq_some_iff hbox).2 ?_
  by_cases hfree : method.freeCoordinates qp.feasible y = []
  · exact .inl ⟨hfree, ext_get fun i ↦ hoff i (hfree ▸ List.not_mem_nil)⟩
  · refine .inr ⟨hfree, ?_, fun i _ ↦ hcontains i⟩
    refine QuadraticProgram.stationary?_eq_some_of_box hbox hlinear (nodup_freeCoordinates _ _ _) hdet hoff
      fun i hi ↦ ?_
    have hinside := hguess.free i (mem_freeCoordinates_iff.1 hi)
    rw [hbox, FeasibleSet.SitsAtBound, not_or] at hinside
    exact hz.gradient_eq_zero hsymm hbox hinside.1 hinside.2

/-- Over the simplex too: there is nothing to cut off, and the weights add up to one already. -/
theorem candidate?_of_simplex (hsimplex : qp.feasible = .simplex)
    (hlinear : LinearMethod.IsExact method.solveLinear) (htolerance : 0 ≤ method.activeTolerance)
    (hsymm : qp.hessian.toMatrix.IsSymm) (hz : qp.IsMinimizer z)
    (hguess : method.GuessesActiveSet qp.feasible y z)
    (hregular : qp.IsRegularOver (method.freeCoordinates qp.feasible y)) :
    method.candidate? qp y = some z := by
  have hdet : (qp.borderedMatrix (method.freeCoordinates qp.feasible y)).toMatrix.det ≠ 0 := by
    simpa only [QuadraticProgram.IsRegularOver, hsimplex] using hregular
  have hcontains := hz.contains
  rw [hsimplex] at hcontains
  obtain ⟨hnonneg, htotal⟩ := hcontains
  have hoff (i : Fin m) (hi : i ∉ method.freeCoordinates qp.feasible y) : z.get i = 0 := by
    have hfixed : method.fixedAt? qp.feasible y i = some 0 := by
      have hne := mem_freeCoordinates_iff.not.1 hi
      rw [hsimplex, fixedAt?] at hne ⊢
      split_ifs at hne ⊢ with h
      · exact absurd rfl hne
      · rfl
    exact hguess.fixed i 0 hfixed
  have hpos (i : Fin m) (hi : i ∈ method.freeCoordinates qp.feasible y) : 0 < z.get i := by
    refine lt_of_le_of_ne (hnonneg i) fun h ↦ hguess.free i (mem_freeCoordinates_iff.1 hi) (.inl ?_)
    rw [hsimplex, FeasibleSet.lowerAt, ← h]
  -- Some weight is positive, as they add up to one.
  obtain ⟨j, hj⟩ : ∃ j, j ∈ method.freeCoordinates qp.feasible y := by
    by_contra! hnone
    rw [Finset.sum_eq_zero fun i _ ↦ hoff i (hnone i)] at htotal
    exact zero_ne_one htotal
  have hgrad (i : Fin m) (hi : i ∈ method.freeCoordinates qp.feasible y) :
      qp.gradient z i = qp.gradient z j :=
    le_antisymm (hz.gradient_le hsymm hsimplex (hpos i hi) j) (hz.gradient_le hsymm hsimplex (hpos j hj) i)
  have hmax (i : Fin m) : max (z.get i) 0 = z.get i := max_eq_left (hnonneg i)
  have hstationary : qp.stationary? method.solveLinear (method.freeCoordinates qp.feasible y) 1
      (Vector.replicate m 0) = some z :=
    QuadraticProgram.stationary?_eq_some_of_simplex hsimplex hlinear (nodup_freeCoordinates _ _ _) hdet
      (fun i hi ↦ by rw [get_replicate, hoff i hi]) hgrad htotal
  refine (candidate?_simplex_eq_some_iff hsimplex).2
    ⟨List.ne_nil_of_mem hj, z, hstationary, fun i hi ↦ ?_, ?_, ext_get fun i ↦ ?_⟩
  · exact (neg_nonpos.2 htolerance).trans (hpos i hi).le
  · simp only [hmax, htotal, one_pos]
  · simp only [get_map, hmax, htotal, div_one]

end QpMethod

/-- **Polishing is exact on the right active set.**  Take a method whose linear solver is exact, a program
with a symmetric matrix over a box or the simplex, a point of the set, and a minimiser.  If the coordinates
that the tolerances fix are those in which the minimiser sits at a bound, that very bound, and the system of
the others is regular, then the minimiser is what the point is polished to.  Over the simplex the tolerance
is also what a weight may fall below zero, so there it has to be nonnegative. -/
theorem polish_eq_minimizer {method : QpMethod ℝ} (hlinear : LinearMethod.IsExact method.solveLinear)
    {qp : QuadraticProgram ℝ m} (htolerance : qp.feasible = .simplex → 0 ≤ method.activeTolerance)
    (hsymm : qp.hessian.toMatrix.IsSymm) {y z : Vector ℝ m} (hy : qp.feasible.Contains y)
    (hz : qp.IsMinimizer z) (hguess : method.GuessesActiveSet qp.feasible y z)
    (hregular : qp.IsRegularOver (method.freeCoordinates qp.feasible y)) :
    method.polish qp y = z := by
  have hcandidate : method.candidate? qp y = some z := by
    cases hkind : qp.feasible with
    | box lower upper => exact QpMethod.candidate?_of_box hkind hlinear hsymm hz hguess hregular
    | simplex =>
      exact QpMethod.candidate?_of_simplex hkind hlinear (htolerance hkind) hsymm hz hguess hregular
  have hslack : 0 ≤ Scalar.epsilon * (1 + |qp.objective y|) :=
    mul_nonneg Scalar.epsilon_real_pos.le (by positivity)
  rw [QpMethod.polish_eq, hcandidate, Option.elim_some,
    if_pos ((hz.le y hy).trans (le_add_of_nonneg_right hslack))]

/-- Half the squared difference of two weights, and a third weight that costs something.  The matrix is
singular, even over the two. -/
noncomputable def levelProgram : QuadraticProgram ℝ 3 where
  hessian := #v[#v[1, -1, 0], #v[-1, 1, 0], #v[0, 0, 0]]
  linear := #v[0, 0, 1]
  feasible := .simplex

theorem objective_levelProgram (w : Vector ℝ 3) :
    levelProgram.objective w = (w.get 0 - w.get 1) ^ 2 / 2 + w.get 2 := by
  rw [QuadraticProgram.objective_eq]
  simp [dotProduct, mulVec, Fin.sum_univ_three, levelProgram, Mat.toMatrix]
  ring

/-- The weights are level after polishing. -/
theorem polish_eq_minimizer_level :
    levelProgram.feasible.Contains #v[3 / 10, 7 / 10, 0] ∧ levelProgram.IsMinimizer #v[1 / 2, 1 / 2, 0] ∧
    (QpMethod.standard : QpMethod ℝ).GuessesActiveSet levelProgram.feasible #v[3 / 10, 7 / 10, 0]
      #v[1 / 2, 1 / 2, 0] ∧
    levelProgram.IsRegularOver ((QpMethod.standard : QpMethod ℝ).freeCoordinates levelProgram.feasible
      #v[3 / 10, 7 / 10, 0]) ∧
    (QpMethod.standard : QpMethod ℝ).polish levelProgram #v[3 / 10, 7 / 10, 0] = #v[1 / 2, 1 / 2, 0] := by
  have htolerance : (QpMethod.standard : QpMethod ℝ).activeTolerance = 1e-7 := rfl
  have hnonneg : 0 ≤ (QpMethod.standard : QpMethod ℝ).activeTolerance := by
    rw [htolerance]
    norm_num
  have hfixed (i : Fin 3) :
      (QpMethod.standard : QpMethod ℝ).fixedAt? levelProgram.feasible #v[3 / 10, 7 / 10, 0] i
        = if i = 2 then some 0 else none := by
    rw [levelProgram, QpMethod.fixedAt?, htolerance]
    fin_cases i
    · exact if_pos (by norm_num : (1e-7 : ℝ) < 3 / 10)
    · exact if_pos (by norm_num : (1e-7 : ℝ) < 7 / 10)
    · exact if_neg (by norm_num : ¬ (1e-7 : ℝ) < 0)
  have hfree : (QpMethod.standard : QpMethod ℝ).freeCoordinates levelProgram.feasible
      #v[3 / 10, 7 / 10, 0] = [0, 1] := by
    rw [QpMethod.freeCoordinates, funext fun i ↦ congrArg Option.isNone (hfixed i)]
    rfl
  have hstart : levelProgram.feasible.Contains #v[3 / 10, 7 / 10, 0] := by
    refine ⟨fun i ↦ ?_, ?_⟩
    · fin_cases i <;> norm_num [Vector.get]
    · norm_num [Fin.sum_univ_three, Vector.get]
  have hleast : levelProgram.IsMinimizer #v[1 / 2, 1 / 2, 0] := by
    refine ⟨⟨fun i ↦ ?_, ?_⟩, fun w hw ↦ ?_⟩
    · fin_cases i <;> norm_num [Vector.get]
    · norm_num [Fin.sum_univ_three, Vector.get]
    · have hnonneg : 0 ≤ w.get 2 := hw.1 2
      rw [objective_levelProgram, objective_levelProgram]
      norm_num [Vector.get]
      positivity
  have hguess : (QpMethod.standard : QpMethod ℝ).GuessesActiveSet levelProgram.feasible
      #v[3 / 10, 7 / 10, 0] #v[1 / 2, 1 / 2, 0] := by
    constructor
    · intro i b hb
      rw [hfixed] at hb
      split_ifs at hb with h
      rw [h, ← Option.some_inj.1 hb]
      rfl
    · intro i hi
      rw [hfixed] at hi
      rintro (h | h)
      · have hzero : (0 : ℝ) = (#v[1 / 2, 1 / 2, 0] : Vector ℝ 3).get i := Extended.finite.inj h
        fin_cases i
        · norm_num [Vector.get] at hzero
        · norm_num [Vector.get] at hzero
        · cases hi
      · cases h
  have hregular : levelProgram.IsRegularOver [0, 1] := by
    rw [QuadraticProgram.IsRegularOver, levelProgram]
    dsimp only
    rw [QuadraticProgram.borderedMatrix, Mat.toMatrix_ofFn, Matrix.det_fin_three]
    norm_num
  have hsymm : levelProgram.hessian.toMatrix.IsSymm := by
    ext i j
    fin_cases i <;> fin_cases j <;> rfl
  rw [← hfree] at hregular
  exact ⟨hstart, hleast, hguess, hregular,
    polish_eq_minimizer solveLinear?_isExact (fun _ ↦ hnonneg) hsymm hstart hleast hguess hregular⟩

end ExactPenalty
