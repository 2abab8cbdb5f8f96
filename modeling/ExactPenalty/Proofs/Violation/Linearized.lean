import Mathlib
import ExactPenalty.Proofs.Violation

/-!
# The linearised violation

The linearised violation is what the method knows of the violation away from an iterate.  Seen as a
function of the displacement `d` it is convex, in either model: a constraint contributes the largest
`y v` over its multipliers `y`, its value `v` is affine in `d`, and neither adding up nor taking the
largest of such functions destroys convexity.

At `d = 0` the linearised violation is the violation, and there the gradient of the violation supports
its sum.  The gradient combines the constraint gradients with the multipliers of the values at hand.
These give just the violation at `d = 0`, and after `d` they are still a choice of multipliers, which
never gives more than the violation there (`dot_penaltyGradAt_le`).  So nothing is special about a
constraint whose value is zero: the multiplier zero, which the gradient uses for it, is one of those
that may be chosen.

## What is here

* `violationLinf_le_iff`, `Observation.linearizedViolation_false_le_iff` — what it means for the largest
  violation to be within a bound, for lists of values and for the constraints by number.
* `Observation.violationAt_combination_le`, `Observation.linearizedViolation_combination_le` — convexity,
  of one constraint and of all.
* `Observation.linearizedViolation_zero` — the violation itself, at no displacement.
* `Observation.dot_penaltyGradAt_le` — the inequality that the descent of steered directions rests on.
* `linearized_violation_is_supported` — all of it for an observation.
-/

set_option autoImplicit false

namespace ExactPenalty

open Linear Matrix

variable {n : Nat}

theorem Constraint.linearized_zero (c : Constraint ℝ n) :
    c.linearized (.replicate n 0) = c.value := by
  rw [Constraint.linearized, plainDot_eq, get_replicate_zero, dotProduct_zero, add_zero]

/-! ## The largest violation -/

/-- A maximum taken one entry after the other is within a bound if its start and all entries are. -/
theorem foldl_larger_le_iff {α : Type} (f : α → ℝ) (l : List α) (a t : ℝ) :
    l.foldl (fun acc c ↦ Scalar.larger acc (f c)) a ≤ t ↔ a ≤ t ∧ ∀ c ∈ l, f c ≤ t := by
  induction l generalizing a with
  | nil => simp
  | cons c l ih =>
    rw [List.foldl_cons, ih, Scalar.larger_real, max_le_iff, List.forall_mem_cons, and_assoc]

theorem ineqViolation_le_iff (ineq : List ℝ) (t : ℝ) :
    ineqViolation ineq ≤ t ↔ 0 ≤ t ∧ ∀ c ∈ ineq, c ≤ t :=
  foldl_larger_le_iff (fun c ↦ c) ineq 0 t

theorem eqViolationFrom_le_iff (start : ℝ) (eq : List ℝ) (t : ℝ) :
    eqViolationFrom start eq ≤ t ↔ start ≤ t ∧ ∀ c ∈ eq, |c| ≤ t :=
  foldl_larger_le_iff (fun c ↦ |c|) eq start t

theorem violationLinf_le_iff (ineq eq : List ℝ) (t : ℝ) :
    violationLinf ineq eq ≤ t ↔ (0 ≤ t ∧ ∀ c ∈ ineq, c ≤ t) ∧ ∀ c ∈ eq, |c| ≤ t := by
  rw [violationLinf, eqViolationFrom_le_iff, ineqViolation_le_iff]

/-- Going on with the equalities after the inequalities gives the larger of the two maxima. -/
theorem violationLinf_eq_max (ineq eq : List ℝ) :
    violationLinf ineq eq = max (ineqViolation ineq) (eqViolationFrom 0 eq) := by
  refine eq_of_forall_ge_iff fun t ↦ ?_
  rw [violationLinf_le_iff, max_le_iff, ineqViolation_le_iff, eqViolationFrom_le_iff]
  constructor
  · rintro ⟨⟨hnonneg, hineq⟩, heq⟩
    exact ⟨⟨hnonneg, hineq⟩, hnonneg, heq⟩
  · rintro ⟨hineq, -, heq⟩
    exact ⟨hineq, heq⟩

/-- What holds of all entries of two lists, told apart by their numbers in the joint list. -/
theorem forall_append_ite {α : Type} (P Q : α → Prop) (l₁ l₂ : List α) :
    (∀ k : Fin (l₁ ++ l₂).length,
        if k.val < l₁.length then P ((l₁ ++ l₂).get k) else Q ((l₁ ++ l₂).get k))
      ↔ (∀ c ∈ l₁, P c) ∧ ∀ c ∈ l₂, Q c := by
  induction l₁ with
  | nil => simp [List.forall_mem_iff_get]
  | cons a l₁ ih =>
    show (∀ k : Fin ((l₁ ++ l₂).length + 1), _) ↔ _
    rw [Fin.forall_fin_succ, List.forall_mem_cons, and_assoc, ← ih]
    simp

namespace Observation

variable (o : Observation ℝ n)

/-- The largest violation is within a bound if every violation is, and the bound is not negative; the
latter says something only where there are no constraints. -/
theorem violationLinf_map_le_iff (f : Constraint ℝ n → ℝ) (t : ℝ) :
    violationLinf (o.ineq.map f) (o.eq.map f) ≤ t ↔
      0 ≤ t ∧ ∀ k, o.violationAt k (f (o.constraint k)) ≤ t := by
  have hsplit (k : Fin o.constraints.length) : o.violationAt k (f (o.constraint k)) ≤ t ↔
      if k.val < o.ineq.length then max (f (o.constraint k)) 0 ≤ t else |f (o.constraint k)| ≤ t := by
    rw [violationAt]
    split_ifs <;> rfl
  have hlists : (∀ k, o.violationAt k (f (o.constraint k)) ≤ t) ↔
      (∀ c ∈ o.ineq, max (f c) 0 ≤ t) ∧ ∀ c ∈ o.eq, |f c| ≤ t := by
    rw [forall_congr' hsplit]
    exact forall_append_ite (fun c ↦ max (f c) 0 ≤ t) (fun c ↦ |f c| ≤ t) o.ineq o.eq
  rw [violationLinf_le_iff, hlists, List.forall_mem_map, List.forall_mem_map]
  constructor
  · rintro ⟨⟨hnonneg, hineq⟩, heq⟩
    exact ⟨hnonneg, fun c hc ↦ max_le (hineq c hc) hnonneg, heq⟩
  · rintro ⟨hnonneg, hineq, heq⟩
    exact ⟨⟨hnonneg, fun c hc ↦ (le_max_left _ _).trans (hineq c hc)⟩, heq⟩

theorem linearizedViolation_false_le_iff (d : Vector ℝ n) (t : ℝ) :
    o.linearizedViolation d false ≤ t ↔
      0 ≤ t ∧ ∀ k, o.violationAt k (o.linearizedVec d.get k) ≤ t := by
  simp only [← linearized_constraint]
  exact o.violationLinf_map_le_iff (fun c ↦ c.linearized d) t

theorem violationAt_le_linearizedViolation (d : Vector ℝ n) (k : Fin o.constraints.length) :
    o.violationAt k (o.linearizedVec d.get k) ≤ o.linearizedViolation d false :=
  ((o.linearizedViolation_false_le_iff d _).1 le_rfl).2 k

theorem linearizedViolation_false_nonneg (d : Vector ℝ n) : 0 ≤ o.linearizedViolation d false :=
  ((o.linearizedViolation_false_le_iff d _).1 le_rfl).1

/-! ## The sum and the largest -/

theorem violationAt_nonneg (k : Fin o.constraints.length) (v : ℝ) : 0 ≤ o.violationAt k v := by
  rw [violationAt]
  split_ifs
  · exact le_max_right v 0
  · exact abs_nonneg v

/-- **The largest violation is at most the sum of all** … -/
theorem linearizedViolation_false_le_true (d : Vector ℝ n) :
    o.linearizedViolation d false ≤ o.linearizedViolation d true := by
  rw [linearizedViolation_false_le_iff, linearizedViolation_eq_sum]
  have hnonneg : ∀ k ∈ Finset.univ, 0 ≤ o.violationAt k (o.linearizedVec d.get k) :=
    fun k _ ↦ o.violationAt_nonneg k _
  exact ⟨Finset.sum_nonneg hnonneg, fun k ↦ Finset.single_le_sum hnonneg (Finset.mem_univ k)⟩

/-- … **and the sum is at most as many times the largest as there are constraints.** -/
theorem linearizedViolation_true_le_mul (d : Vector ℝ n) :
    o.linearizedViolation d true ≤ o.constraints.length * o.linearizedViolation d false := by
  have hle := Finset.sum_le_card_nsmul Finset.univ
    (fun k ↦ o.violationAt k (o.linearizedVec d.get k)) (o.linearizedViolation d false)
    fun k _ ↦ o.violationAt_le_linearizedViolation d k
  rwa [Finset.card_univ, Fintype.card_fin, nsmul_eq_mul, ← linearizedViolation_eq_sum] at hle

/-! ## Convexity -/

section Combination

variable {a b : ℝ}

/-- The violation of one constraint is convex: the multiplier that gives the violation at a combination
gives no more than the violation at either of the two values. -/
theorem violationAt_combination_le (ha : 0 ≤ a) (hb : 0 ≤ b) (k : Fin o.constraints.length) (u v : ℝ) :
    o.violationAt k (a * u + b * v) ≤ a * o.violationAt k u + b * o.violationAt k v := by
  have hle := o.mul_le_violationAt (o.isMultiplier_multiplierAt fun _ ↦ a * u + b * v) k
  calc o.violationAt k (a * u + b * v)
      = a * (o.multiplierAt k (a * u + b * v) * u) + b * (o.multiplierAt k (a * u + b * v) * v) := by
        rw [← multiplierAt_mul]
        ring
    _ ≤ a * o.violationAt k u + b * o.violationAt k v := by gcongr <;> exact hle _

/-- The linearised constraint values are affine. -/
theorem linearizedVec_combination (hab : a + b = 1) (d e : Fin n → ℝ) :
    o.linearizedVec (a • d + b • e) = a • o.linearizedVec d + b • o.linearizedVec e := by
  -- the displacement enters linearly, so only the values at hand have to be shared out
  have hvalues : o.valueVec = a • o.valueVec + b • o.valueVec := by
    rw [← add_smul, hab, one_smul]
  simp only [linearizedVec, mulVec_add, mulVec_smul, smul_add]
  nth_rewrite 1 [hvalues]
  abel

/-- **The linearised violation is convex**, in either model. -/
theorem linearizedViolation_combination_le (ha : 0 ≤ a) (hb : 0 ≤ b) (hab : a + b = 1) (l1 : Bool)
    (d e : Vector ℝ n) :
    o.linearizedViolation (scale d a + scale e b) l1
      ≤ a * o.linearizedViolation d l1 + b * o.linearizedViolation e l1 := by
  have hone (k : Fin o.constraints.length) :
      o.violationAt k (o.linearizedVec (scale d a + scale e b).get k)
        ≤ a * o.violationAt k (o.linearizedVec d.get k)
          + b * o.violationAt k (o.linearizedVec e.get k) := by
    rw [get_add, get_scale, get_scale, o.linearizedVec_combination hab]
    exact o.violationAt_combination_le ha hb k _ _
  cases l1 with
  | true =>
    simp only [linearizedViolation_eq_sum, Finset.mul_sum, ← Finset.sum_add_distrib]
    exact Finset.sum_le_sum fun k _ ↦ hone k
  | false =>
    have hd := o.linearizedViolation_false_nonneg d
    have he := o.linearizedViolation_false_nonneg e
    refine (o.linearizedViolation_false_le_iff _ _).2 ⟨by positivity, fun k ↦ (hone k).trans ?_⟩
    gcongr
    · exact o.violationAt_le_linearizedViolation d k
    · exact o.violationAt_le_linearizedViolation e k

end Combination

/-! ## No displacement -/

theorem linearizedViolation_zero (l1 : Bool) :
    o.linearizedViolation (.replicate n 0) l1 = o.violation l1 := by
  have hvalue (l : List (Constraint ℝ n)) :
      l.map (·.linearized (.replicate n 0)) = l.map (·.value) :=
    List.map_congr_left fun c _ ↦ c.linearized_zero
  simp only [linearizedViolation, hvalue]
  cases l1 with
  | true => rfl
  | false =>
    show violationLinf _ _ = Scalar.larger o.tvIneq o.tvEq
    rw [violationLinf_eq_max, Scalar.larger_real]
    rfl

/-! ## The gradient of the violation -/

/-- The slope of the penalty function: that of the objective, and what the multipliers of the values at
hand make of the changes of the constraints. -/
theorem dot_penaltyGradAt (μ : ℝ) (d : Vector ℝ n) :
    dot (o.penaltyGradAt μ) d = μ * dot o.grad d
      + (fun k ↦ o.multiplierAt k (o.valueVec k)) ⬝ᵥ o.jacobian.toMatrixᵀ *ᵥ d.get := by
  rw [dot_eq, dot_eq, get_penaltyGradAt, add_dotProduct, smul_dotProduct, smul_eq_mul,
    jacobian_mulVec_dotProduct]

/-- **The slope of the penalty function is at most the change of its linearisation.** -/
theorem dot_penaltyGradAt_le (μ : ℝ) (d : Vector ℝ n) :
    dot (o.penaltyGradAt μ) d ≤ μ * dot o.grad d + o.linearizedViolation d true - o.tvL1 := by
  -- chosen for the values at hand, and kept after the displacement
  let z : Fin o.constraints.length → ℝ := fun k ↦ o.multiplierAt k (o.valueVec k)
  have hvalues : z ⬝ᵥ o.linearizedVec d.get = o.tvL1 + z ⬝ᵥ o.jacobian.toMatrixᵀ *ᵥ d.get := by
    rw [linearizedVec, dotProduct_add, tvL1_eq_sum, ← sum_multiplierAt_mul]
  have hafter : z ⬝ᵥ o.linearizedVec d.get ≤ o.linearizedViolation d true :=
    dotProduct_linearizedVec_le_linearizedViolation (o.isMultiplier_multiplierAt o.valueVec) d
  rw [dot_penaltyGradAt]
  linarith

end Observation

/-- **The linearised violation is a convex model of the violation, and the gradient of the penalty
function supports it.**  At every observation, whatever the signs of its constraint values:

* in either model the linearised violation is convex, and without a displacement it is the violation;
* the largest linearised violation is at most their sum, and the sum is at most as many times the largest
  as there are constraints;
* the sum is nowhere less than its value at no displacement plus the slope of the penalty function of
  weight zero; so for every weight the linearised penalty function changes by its slope at least. -/
theorem linearized_violation_is_supported (o : Observation ℝ n) :
    (∀ (l1 : Bool) (d e : Vector ℝ n) (a : ℝ), 0 ≤ a → a ≤ 1 →
      o.linearizedViolation (scale d a + scale e (1 - a)) l1
        ≤ a * o.linearizedViolation d l1 + (1 - a) * o.linearizedViolation e l1) ∧
    (∀ l1, o.linearizedViolation (.replicate n 0) l1 = o.violation l1) ∧
    (∀ d, o.linearizedViolation d false ≤ o.linearizedViolation d true ∧
      o.linearizedViolation d true ≤ o.constraints.length * o.linearizedViolation d false) ∧
    (∀ d, o.tvL1 + dot (o.penaltyGradAt 0) d ≤ o.linearizedViolation d true) ∧
    ∀ (μ : ℝ) (d : Vector ℝ n),
      dot (o.penaltyGradAt μ) d ≤ μ * dot o.grad d + o.linearizedViolation d true - o.tvL1 := by
  refine ⟨fun l1 d e a hnonneg hle ↦ ?_, o.linearizedViolation_zero, fun d ↦ ?_, fun d ↦ ?_,
    o.dot_penaltyGradAt_le⟩
  · exact o.linearizedViolation_combination_le hnonneg (sub_nonneg.2 hle) (add_sub_cancel a 1) l1 d e
  · exact ⟨o.linearizedViolation_false_le_true d, o.linearizedViolation_true_le_mul d⟩
  · have hslope := o.dot_penaltyGradAt_le 0 d
    rw [zero_mul, zero_add] at hslope
    exact le_sub_iff_add_le'.1 hslope

/-- Two inequalities, one just at its bound and one with room, and a violated equality, on the line. -/
noncomputable def cornerObservation : Observation ℝ 1 where
  point := .replicate 1 0
  value := 0
  grad := .replicate 1 1
  ineq := [⟨0, .replicate 1 (-1)⟩, ⟨-1, .replicate 1 1⟩]
  eq := [⟨1, .replicate 1 (-1)⟩]

theorem linearizedViolation_corner (t : ℝ) (l1 : Bool) :
    cornerObservation.linearizedViolation (.replicate 1 t) l1
      = if l1 then max (-t) 0 + max (-1 + t) 0 + |1 + -t|
        else max (max (max 0 (-t)) (-1 + t)) |1 + -t| := by
  cases l1 <;>
    simp [Observation.linearizedViolation, violationL1, violationLinf, ineqViolation, eqViolationFrom,
      cornerObservation, Constraint.linearized, dotProduct]

/-- Halfway between two displacements to either side of the corner. -/
theorem linearized_violation_is_supported_at_corner :
    (0 : ℝ) ≤ 1 / 2 ∧ (1 / 2 : ℝ) ≤ 1 ∧ ∀ l1,
      cornerObservation.linearizedViolation
          (scale (.replicate 1 (-1)) (1 / 2) + scale (.replicate 1 3) (1 - 1 / 2)) l1
        ≤ if l1 then 1 / 2 * 3 + (1 - 1 / 2) * 4 else 1 / 2 * 2 + (1 - 1 / 2) * 2 := by
  have hnonneg : (0 : ℝ) ≤ 1 / 2 := by norm_num
  have hle : (1 / 2 : ℝ) ≤ 1 := by norm_num
  refine ⟨hnonneg, hle, fun l1 ↦ ?_⟩
  have hconvex := (linearized_violation_is_supported cornerObservation).1 l1
    (.replicate 1 (-1)) (.replicate 1 3) (1 / 2) hnonneg hle
  rw [linearizedViolation_corner, linearizedViolation_corner] at hconvex
  refine hconvex.trans_eq ?_
  cases l1 <;> norm_num

end ExactPenalty
