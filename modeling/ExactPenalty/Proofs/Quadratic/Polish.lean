import Mathlib
import ExactPenalty.Proofs.Quadratic.Projection
import ExactPenalty.Proofs.Quadratic.Reduced
import ExactPenalty.Quadratic.Solver

/-!
# What polishing keeps

The estimate of a minimiser may be anything, and so may the answers of the linear solver.  An answer of
`QpMethod.solve` lies in its set all the same, and is worse than the projected estimate by rounding at most.

Nothing about the linear system is needed for it.  Over a box, a coordinate that is fixed sits at one of its
bounds, and a free one is looked at before the candidate is taken.  Over the simplex, what the system answers
is cut off at zero and divided by what is left, if anything is.  The objective of the candidate is compared
with that of the point it would replace.

## What is here

* `QpMethod.fixedAt?`, `QpMethod.freeCoordinates` — the guess of the active set, for both kinds of sets.
* `QpMethod.candidate?` — the candidate of the polish; `candidate?_box_eq_some_iff` and
  `candidate?_simplex_eq_some_iff` say when there is one, and `contains_of_candidate?` that it lies in the
  set.
* `QuadraticProgram.magnitude_le_iff` — the magnitude of a program bounds its data.
* `answers_are_feasible` — the answers of the method.
-/

set_option autoImplicit false

namespace ExactPenalty

open Linear

variable {m : Nat}

/-! ## Sets -/

namespace Extended

theorem finite?_eq_some_iff {e : Extended ℝ} {x : ℝ} : e.finite? = some x ↔ e = .finite x := by
  cases e with
  | finite y => simp
  | negInf | posInf => exact iff_of_false nofun nofun

/-- A bound lies between the two bounds. -/
theorem between_of_eq_finite {l u : Extended ℝ} (hl : l ≠ .posInf) (hu : u ≠ .negInf) (h : ¬ l.Crosses u)
    {b : ℝ} (hb : l = .finite b ∨ u = .finite b) : l.AtMost b ∧ u.AtLeast b := by
  rcases hb with rfl | rfl
  · cases u with
    | negInf => exact absurd rfl hu
    | finite c => exact ⟨le_rfl, not_crosses_finite.1 h⟩
    | posInf => exact ⟨le_rfl, atLeast_posInf b⟩
  · cases l with
    | negInf => exact ⟨atMost_negInf b, le_rfl⟩
    | finite c => exact ⟨not_crosses_finite.1 h, le_rfl⟩
    | posInf => exact absurd rfl hl

end Extended

namespace FeasibleSet

/-- No lower bound of a box is the upper end of the line, and no upper bound the lower end. -/
def HasBoundsOnLine : FeasibleSet ℝ m → Prop
  | box lower upper => ∀ i, lower.get i ≠ .posInf ∧ upper.get i ≠ .negInf
  | simplex => True

theorem isProper_of_isEmpty_eq_false {set : FeasibleSet ℝ m} (hm : 0 < m) (hends : set.HasBoundsOnLine)
    (h : set.isEmpty = false) : set.IsProper := by
  cases set with
  | simplex => exact hm
  | box lower upper =>
    intro i
    refine ⟨(hends i).1, (hends i).2, fun hcross ↦ ?_⟩
    rw [isEmpty, ← Bool.not_eq_true, foldl_or_eq_true_iff] at h
    exact h ⟨i, decide_eq_true hcross⟩

/-- A set that is not empty has a point to begin with. -/
theorem contains_somePoint {set : FeasibleSet ℝ m} (hset : set.IsProper) : set.Contains set.somePoint := by
  cases set with
  | box lower upper => exact (isFoot_project hset _).contains
  | simplex =>
    have hm : (0 : ℝ) < m := Nat.cast_pos.2 hset
    refine ⟨fun i ↦ ?_, ?_⟩
    · rw [somePoint, get_replicate]
      positivity
    · simp only [somePoint, get_replicate]
      rw [Finset.sum_const, Finset.card_univ, Fintype.card_fin, nsmul_eq_mul]
      exact mul_one_div_cancel hm.ne'

end FeasibleSet

/-! ## The guess of the active set -/

namespace QpMethod

variable {method : QpMethod ℝ} {qp : QuadraticProgram ℝ m} {lower upper : Vector (Extended ℝ) m}
    {y z : Vector ℝ m} {i : Fin m}

/-- Where the polish fixes a coordinate, if it does: over a box at a bound that is near, and over the simplex
at zero where the weight does not exceed the tolerance. -/
noncomputable def fixedAt? (method : QpMethod ℝ) (set : FeasibleSet ℝ m) (y : Vector ℝ m) (i : Fin m) :
    Option ℝ :=
  match set with
  | .box lower upper => method.activeBound? (lower.get i) (upper.get i) (y.get i)
  | .simplex => if method.activeTolerance < y.get i then none else some 0

/-- The coordinates that the polish does not fix. -/
noncomputable def freeCoordinates (method : QpMethod ℝ) (set : FeasibleSet ℝ m) (y : Vector ℝ m) :
    List (Fin m) :=
  coordinatesWhere fun i ↦ (method.fixedAt? set y i).isNone

/-- The point with the coordinates that the polish fixes where it fixes them. -/
noncomputable def fixedPoint (method : QpMethod ℝ) (set : FeasibleSet ℝ m) (y : Vector ℝ m) :
    Vector ℝ m :=
  Vector.ofFn fun i ↦ (method.fixedAt? set y i).getD (y.get i)

theorem get_fixedPoint {set : FeasibleSet ℝ m} {b : ℝ} (hb : method.fixedAt? set y i = some b) :
    (method.fixedPoint set y).get i = b := by
  rw [fixedPoint, get_ofFn, hb, Option.getD_some]

theorem mem_freeCoordinates_iff {set : FeasibleSet ℝ m} :
    i ∈ method.freeCoordinates set y ↔ method.fixedAt? set y i = none := by
  rw [freeCoordinates, coordinatesWhere, List.mem_filter, Option.isNone_iff_eq_none]
  exact and_iff_right (List.mem_finRange i)

theorem nodup_freeCoordinates (method : QpMethod ℝ) (set : FeasibleSet ℝ m) (y : Vector ℝ m) :
    (method.freeCoordinates set y).Nodup :=
  (List.nodup_finRange m).filter _

/-- A bound at which a component counts as sitting is one of its two bounds. -/
theorem eq_finite_of_activeBound? {l u : Extended ℝ} {x b : ℝ} (h : method.activeBound? l u x = some b) :
    l = .finite b ∨ u = .finite b := by
  rw [activeBound?] at h
  rcases (Option.orElse_eq_some _ _ _).1 h with hl | ⟨-, hu⟩
  · exact .inl (Extended.finite?_eq_some_iff.1 (Option.filter_eq_some_iff.1 hl).1)
  · exact .inr (Extended.finite?_eq_some_iff.1 (Option.filter_eq_some_iff.1 hu).1)

/-! ## Candidates -/

/-- The point that the polish would put in the place of another one. -/
noncomputable def candidate? (method : QpMethod ℝ) (qp : QuadraticProgram ℝ m) (y : Vector ℝ m) :
    Option (Vector ℝ m) :=
  match qp.feasible with
  | .box lower upper => method.polishBox? qp lower upper y
  | .simplex => method.polishSimplex? qp y

theorem polish_eq (method : QpMethod ℝ) (qp : QuadraticProgram ℝ m) (y : Vector ℝ m) :
    method.polish qp y = (method.candidate? qp y).elim y fun z ↦
      if qp.objective z ≤ qp.objective y + Scalar.epsilon * (1 + |qp.objective y|) then z else y := by
  rw [polish, candidate?]
  cases qp.feasible with
  | box lower upper =>
    dsimp only
    cases method.polishBox? qp lower upper y <;> rfl
  | simplex =>
    dsimp only
    cases method.polishSimplex? qp y <;> rfl

/-- Over a box the candidate is the fixed point if no coordinate is free.  Otherwise there is one if the
system has an answer that lies between the bounds. -/
theorem candidate?_box_eq_some_iff (hbox : qp.feasible = .box lower upper) :
    method.candidate? qp y = some z ↔
      (method.freeCoordinates qp.feasible y = [] ∧ method.fixedPoint qp.feasible y = z) ∨
      (method.freeCoordinates qp.feasible y ≠ [] ∧
        qp.stationary? method.solveLinear (method.freeCoordinates qp.feasible y) 1
          (method.fixedPoint qp.feasible y) = some z ∧
        ∀ i ∈ method.freeCoordinates qp.feasible y,
          (lower.get i).AtMost (z.get i) ∧ (upper.get i).AtLeast (z.get i)) := by
  have hcandidate : method.candidate? qp y =
      if (method.freeCoordinates qp.feasible y).isEmpty then some (method.fixedPoint qp.feasible y) else
        (qp.stationary? method.solveLinear (method.freeCoordinates qp.feasible y) 1
          (method.fixedPoint qp.feasible y)).bind fun z ↦
            if (method.freeCoordinates qp.feasible y).all fun i ↦ Scalar.isFinite (z.get i) &&
              decide ((lower.get i).AtMost (z.get i) ∧ (upper.get i).AtLeast (z.get i)) then some z
            else none := by
    rw [candidate?, hbox]
    rfl
  rw [hcandidate]
  by_cases hfree : method.freeCoordinates qp.feasible y = []
  · rw [if_pos (List.isEmpty_iff.2 hfree), Option.some_inj]
    simp only [hfree, true_and, ne_eq, not_true_eq_false, false_and, or_false]
  · rw [if_neg (List.isEmpty_iff.not.2 hfree), Option.bind_eq_some_iff]
    simp only [Scalar.isFinite_real, Bool.true_and, Option.ite_none_right_eq_some, List.all_eq_true,
      decide_eq_true_eq, Option.some_inj, hfree, false_and, false_or, ne_eq, not_false_eq_true, true_and]
    constructor
    · rintro ⟨w, hw, hinside, rfl⟩
      exact ⟨hw, hinside⟩
    · rintro ⟨hw, hinside⟩
      exact ⟨z, hw, hinside, rfl⟩

/-- Over the simplex there is a candidate if some weight exceeds the tolerance, and the system has an answer
without a weight below the negative tolerance and with one above zero. -/
theorem candidate?_simplex_eq_some_iff (hsimplex : qp.feasible = .simplex) :
    method.candidate? qp y = some z ↔
      method.freeCoordinates qp.feasible y ≠ [] ∧ ∃ w : Vector ℝ m,
        qp.stationary? method.solveLinear (method.freeCoordinates qp.feasible y) 1 (Vector.replicate m 0)
          = some w ∧
        (∀ i ∈ method.freeCoordinates qp.feasible y, -method.activeTolerance ≤ w.get i) ∧
        0 < ∑ i, max (w.get i) 0 ∧ z = w.map fun v ↦ max v 0 / ∑ i, max (w.get i) 0 := by
  have hfree : coordinatesWhere (fun i ↦ decide (method.activeTolerance < y.get i))
      = method.freeCoordinates qp.feasible y := by
    rw [freeCoordinates, hsimplex]
    refine congrArg coordinatesWhere (funext fun i ↦ ?_)
    rw [fixedAt?]
    split_ifs with h <;> simp [h]
  rw [candidate?, hsimplex]
  dsimp only
  rw [polishSimplex?]
  dsimp only
  rw [hfree, ← hsimplex]
  simp only [Option.ite_none_left_eq_some, List.isEmpty_iff, Option.bind_eq_bind, Option.bind_eq_some_iff,
    Option.ite_none_right_eq_some, List.all_eq_true, Scalar.isFinite_real, Bool.true_and, laneSum_eq, get_map,
    Scalar.larger_real, not_le]
  refine and_congr_right fun _ ↦ exists_congr fun w ↦ and_congr_right fun _ ↦
    and_congr (forall₂_congr fun i _ ↦ ?_) (and_congr_right fun _ ↦ ?_)
  · rw [Bool.not_eq_true', decide_eq_false_iff_not, not_lt]
  · rw [Option.some_inj, Vector.map_map, eq_comm]
    rfl

/-- **A candidate lies in the set**, whatever the linear solver has answered. -/
theorem contains_of_candidate? (hset : qp.feasible.IsProper) (h : method.candidate? qp y = some z) :
    qp.feasible.Contains z := by
  cases hkind : qp.feasible with
  | box lower upper =>
    -- A fixed coordinate sits at a bound …
    have hfixed (i : Fin m) (hi : i ∉ method.freeCoordinates qp.feasible y) :
        (lower.get i).AtMost ((method.fixedPoint qp.feasible y).get i) ∧
          (upper.get i).AtLeast ((method.fixedPoint qp.feasible y).get i) := by
      obtain ⟨b, hb⟩ := Option.ne_none_iff_exists'.1 (mem_freeCoordinates_iff.not.1 hi)
      rw [get_fixedPoint hb]
      rw [hkind] at hset hb
      obtain ⟨hl, hu, hcross⟩ := hset i
      exact Extended.between_of_eq_finite hl hu hcross (eq_finite_of_activeBound? hb)
    -- … and a free one has been looked at.
    intro i
    rcases (candidate?_box_eq_some_iff hkind).1 h with ⟨hnone, rfl⟩ | ⟨-, hz, hinside⟩
    · exact hfixed i (hnone ▸ List.not_mem_nil)
    · by_cases hi : i ∈ method.freeCoordinates qp.feasible y
      · exact hinside i hi
      · rw [QuadraticProgram.get_of_stationary? hz hi]
        exact hfixed i hi
  | simplex =>
    obtain ⟨-, w, -, -, htotal, rfl⟩ := (candidate?_simplex_eq_some_iff hkind).1 h
    refine ⟨fun i ↦ ?_, ?_⟩
    · rw [get_map]
      exact div_nonneg (le_max_right _ _) htotal.le
    · simp only [get_map]
      rw [← Finset.sum_div, div_self htotal.ne']

/-- **Polishing keeps to the set, and is no worse** up to rounding. -/
theorem polish_spec (method : QpMethod ℝ) (hset : qp.feasible.IsProper) (hy : qp.feasible.Contains y) :
    qp.feasible.Contains (method.polish qp y) ∧
      qp.objective (method.polish qp y) ≤ qp.objective y + Scalar.epsilon * (1 + |qp.objective y|) := by
  have hstay : qp.objective y ≤ qp.objective y + Scalar.epsilon * (1 + |qp.objective y|) :=
    le_add_of_nonneg_right (mul_nonneg Scalar.epsilon_real_pos.le (by positivity))
  rw [polish_eq]
  cases hcandidate : method.candidate? qp y with
  | none => exact ⟨hy, hstay⟩
  | some z =>
    rw [Option.elim_some]
    split_ifs with hle
    · exact ⟨contains_of_candidate? hset hcandidate, hle⟩
    · exact ⟨hy, hstay⟩

end QpMethod

/-! ## Magnitude -/

/-- A fold of maxima stays below a bound if it starts there and meets nothing above it. -/
theorem foldl_le_iff {α : Type} {n : Nat} {b : ℝ} {next : ℝ → α → ℝ} {p : α → Prop}
    (hnext : ∀ acc x, next acc x ≤ b ↔ acc ≤ b ∧ p x) (v : Vector α n) (a : ℝ) :
    v.foldl next a ≤ b ↔ a ≤ b ∧ ∀ i, p (v.get i) := by
  have hlist (l : List α) (a : ℝ) : l.foldl next a ≤ b ↔ a ≤ b ∧ ∀ x ∈ l, p x := by
    induction l generalizing a with
    | nil => simp
    | cons x l ih => rw [List.foldl_cons, ih, hnext, List.forall_mem_cons, and_assoc]
  have hmem : (∀ x ∈ v.toList, p x) ↔ ∀ i, p (v.get i) := by
    rw [toList_eq_ofFn, List.forall_mem_ofFn_iff]
  rw [← Vector.foldl_toList, hlist, hmem]

namespace QuadraticProgram

theorem isEmpty_of_check {qp : QuadraticProgram ℝ m} (h : qp.check = .ok ()) :
    qp.feasible.isEmpty = false := by
  rw [check] at h
  by_contra hempty
  rw [if_pos (Bool.eq_true_of_not_eq_false hempty)] at h
  cases h

/-- There is no data: every point of the set is a minimiser. -/
def IsZero (qp : QuadraticProgram ℝ m) : Prop :=
  (∀ i j, (qp.hessian.get i).get j = 0) ∧ ∀ i, qp.linear.get i = 0

/-- **The magnitude** is the least bound of the data. -/
theorem magnitude_le_iff {qp : QuadraticProgram ℝ m} {b : ℝ} :
    qp.magnitude ≤ b ↔
      0 ≤ b ∧ (∀ i j, |(qp.hessian.get i).get j| ≤ b) ∧ ∀ i, |qp.linear.get i| ≤ b := by
  have hentry (acc x : ℝ) : Scalar.larger acc (Scalar.abs x) ≤ b ↔ acc ≤ b ∧ |x| ≤ b := by
    rw [Scalar.larger_real, Scalar.abs_real, max_le_iff]
  rw [magnitude, foldl_le_iff hentry, foldl_le_iff fun acc row ↦ foldl_le_iff hentry row acc, and_assoc]

theorem magnitude_eq_zero_iff {qp : QuadraticProgram ℝ m} : qp.magnitude = 0 ↔ qp.IsZero := by
  have hnonneg : 0 ≤ qp.magnitude := (magnitude_le_iff.1 le_rfl).1
  rw [← hnonneg.ge_iff_eq', magnitude_le_iff, and_iff_right le_rfl, IsZero]
  simp only [abs_nonpos_iff]

end QuadraticProgram

/-! ## Answers -/

namespace QpMethod

variable {qp : QuadraticProgram ℝ m}

/-- A program that passes the check is answered by a point of its set if it has no data, and by the polished
estimate otherwise. -/
theorem solve_eq (method : QpMethod ℝ) (hm : 0 < m) (hcheck : qp.check = .ok ()) :
    method.solve qp = if qp.magnitude = 0 then .ok qp.feasible.somePoint else
      (method.estimate (qp.dividedBy qp.magnitude)).map fun y ↦ method.polish qp (qp.feasible.project y) := by
  rw [solve, hcheck]
  simp only [bind, Except.bind, if_neg hm.ne', Scalar.same_real, allFinite_real, if_true]
  split_ifs
  · rfl
  · cases method.estimate (qp.dividedBy qp.magnitude) <;> rfl

end QpMethod

/-- **The answers of the method are feasible, and polishing never worsens them.**  Take any method — any
estimate, any linear solver, any tolerance — and a program that passes the check and whose bounds are on the
line.  Then an answer lies in the set, and is no worse than the projected estimate up to rounding.  It is
there as soon as the estimate is.  A program without data is answered by a point of the set for which no
method makes an estimate: it is the same for all of them. -/
theorem answers_are_feasible (method : QpMethod ℝ) {qp : QuadraticProgram ℝ m} (hm : 0 < m)
    (hcheck : qp.check = .ok ()) (hends : qp.feasible.HasBoundsOnLine) :
    (∀ z, method.solve qp = .ok z → qp.feasible.Contains z ∧
      (¬ qp.IsZero → ∃ y, method.estimate (qp.dividedBy qp.magnitude) = .ok y ∧
        qp.objective z ≤ qp.objective (qp.feasible.project y)
          + Scalar.epsilon * (1 + |qp.objective (qp.feasible.project y)|))) ∧
    (¬ qp.IsZero → ((∃ z, method.solve qp = .ok z) ↔
      ∃ y, method.estimate (qp.dividedBy qp.magnitude) = .ok y)) ∧
    (qp.IsZero → qp.feasible.Contains qp.feasible.somePoint ∧
      ∀ other : QpMethod ℝ, other.solve qp = .ok qp.feasible.somePoint) := by
  have hset : qp.feasible.IsProper :=
    FeasibleSet.isProper_of_isEmpty_eq_false hm hends (QuadraticProgram.isEmpty_of_check hcheck)
  have hsome := FeasibleSet.contains_somePoint hset
  by_cases hzero : qp.IsZero
  · have hsolve (other : QpMethod ℝ) : other.solve qp = .ok qp.feasible.somePoint := by
      rw [other.solve_eq hm hcheck, if_pos (QuadraticProgram.magnitude_eq_zero_iff.2 hzero)]
    refine ⟨fun z hz ↦ ⟨?_, absurd hzero⟩, absurd hzero, fun _ ↦ ⟨hsome, hsolve⟩⟩
    rw [hsolve method] at hz
    exact Except.ok.inj hz ▸ hsome
  · have hsolve := method.solve_eq hm hcheck
    rw [if_neg (QuadraticProgram.magnitude_eq_zero_iff.not.2 hzero)] at hsolve
    cases hestimate : method.estimate (qp.dividedBy qp.magnitude) with
    | error e =>
      rw [hestimate] at hsolve
      refine ⟨fun z hz ↦ ?_, fun _ ↦ iff_of_false ?_ ?_, fun h ↦ absurd h hzero⟩
      · cases hsolve.symm.trans hz
      · rintro ⟨z, hz⟩
        cases hsolve.symm.trans hz
      · rintro ⟨y, hy⟩
        cases hy
    | ok y =>
      rw [hestimate] at hsolve
      have hpolish := method.polish_spec hset (FeasibleSet.isFoot_project hset y).contains
      refine ⟨fun z hz ↦ ?_, fun _ ↦ iff_of_true ⟨_, hsolve⟩ ⟨y, rfl⟩, fun h ↦ absurd h hzero⟩
      obtain rfl := Except.ok.inj (hsolve.symm.trans hz)
      exact ⟨hpolish.1, fun _ ↦ ⟨y, rfl, hpolish.2⟩⟩

/-- A method that makes the same estimate for all programs. -/
noncomputable def QpMethod.stubborn (x : ℝ) : QpMethod ℝ where
  estimate _ := .ok (Vector.replicate _ x)
  solveLinear := solveLinear?
  activeTolerance := 1e-7

/-- The squared distance from a point, over the corner. -/
noncomputable def cornerProgram (target : Vector ℝ 2) : QuadraticProgram ℝ 2 where
  hessian := .identity ℝ 2
  linear := -target
  feasible := corner

/-- A bad estimate of the point of the corner that is nearest to `(3, −2)`. -/
theorem answers_are_feasible_corner :
    (cornerProgram #v[3, -2]).check = .ok () ∧ corner.HasBoundsOnLine ∧ ¬ (cornerProgram #v[3, -2]).IsZero ∧
    ∃ z, (QpMethod.stubborn 7).solve (cornerProgram #v[3, -2]) = .ok z ∧ corner.Contains z ∧
      (cornerProgram #v[3, -2]).objective z
        ≤ (cornerProgram #v[3, -2]).objective (corner.project (.replicate 2 7)) + Scalar.epsilon
          * (1 + |(cornerProgram #v[3, -2]).objective (corner.project (.replicate 2 7))|) := by
  have hempty : corner.isEmpty = false := by
    rw [← Bool.not_eq_true, corner, FeasibleSet.isEmpty, foldl_or_eq_true_iff]
    rintro ⟨i, hi⟩
    fin_cases i <;> exact of_decide_eq_true hi
  have hcheck : (cornerProgram #v[3, -2]).check = .ok () := by
    rw [QuadraticProgram.check, cornerProgram, if_neg (Bool.eq_false_iff.1 hempty), Mat.isFinite_real,
      allFinite_real]
    rfl
  have hends : corner.HasBoundsOnLine := by
    intro i
    fin_cases i <;> exact ⟨by rintro ⟨⟩, by rintro ⟨⟩⟩
  have hdata : ¬ (cornerProgram #v[3, -2]).IsZero := fun h ↦ by
    have h0 := h.2 0
    rw [cornerProgram, get_neg, Pi.neg_apply, neg_eq_zero] at h0
    exact (three_ne_zero : (3 : ℝ) ≠ 0) h0
  obtain ⟨hanswer, hprogress, -⟩ := answers_are_feasible (QpMethod.stubborn 7) two_pos hcheck hends
  obtain ⟨z, hz⟩ := (hprogress hdata).2 ⟨_, rfl⟩
  obtain ⟨hcontains, hbound⟩ := hanswer z hz
  obtain ⟨y, hy, hle⟩ := hbound hdata
  obtain rfl := Except.ok.inj hy
  exact ⟨hcheck, hends, hdata, z, hz, hcontains, hle⟩

end ExactPenalty
