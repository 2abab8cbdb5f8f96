import ExactPenalty.Evaluation

/-!
# What the screen lets through

An observation holds the answer it was made from: at the point that was asked, with the same
objective and gradient, and with one constraint for each constraint value.  So what is known of the
observation is known of the raw answer: its parts have the sizes of a problem of that shape
(`Evaluation.HasShape`), and they are finite if the observation is (`Evaluation.IsFinite`).
-/

set_option autoImplicit false

namespace ExactPenalty

variable {R : Type} {n : Nat}

theorem Observation.shape_eq_zero_iff {o : Observation R n} :
    o.shape = (0, 0) ↔ o.ineq = [] ∧ o.eq = [] := by
  rw [shape, Prod.mk.injEq, List.length_eq_zero_iff, List.length_eq_zero_iff]

namespace Jacobian

variable {J : Jacobian R} {values : List R} {cs : List (Constraint R n)}

/-- Values are paired with gradients only if there is one of the right dimension for each. -/
theorem constraints?_eq_some (h : J.constraints? n values = some cs) :
    ∃ hrows : J.rows = n, J.columns.length = values.length ∧
      cs = values.zipWith (fun v g ↦ ⟨v, g.cast hrows⟩) J.columns := by
  rw [constraints?] at h
  split at h
  · next hrows =>
    split at h
    · next hlength =>
      cases h
      exact ⟨hrows, hlength, rfl⟩
    · cases h
  · cases h

theorem values_of_constraints?_eq_some (h : J.constraints? n values = some cs) :
    cs.map (·.value) = values := by
  obtain ⟨hrows, hlength, rfl⟩ := constraints?_eq_some h
  rw [List.map_zipWith]
  refine List.ext_getElem ?_ fun i _ _ ↦ ?_
  · rw [List.length_zipWith, hlength, Nat.min_self]
  · rw [List.getElem_zipWith]

/-- Finite constraints come from finite values and finite gradients. -/
theorem isFinite_of_constraints?_eq_some [Scalar R] (h : J.constraints? n values = some cs)
    (hfinite : ∀ c ∈ cs, c.isFinite = true) :
    (∀ v ∈ values, Scalar.isFinite v = true) ∧ ∀ g ∈ J.columns, Linear.allFinite g = true := by
  obtain ⟨rows, columns⟩ := J
  obtain ⟨rfl, hlength, rfl⟩ := constraints?_eq_some h
  have hpair : ∀ i (hv : i < values.length) (hg : i < columns.length),
      Scalar.isFinite values[i] = true ∧ Linear.allFinite columns[i] = true := by
    intro i hv hg
    have hi : i < (values.zipWith (fun v g ↦ (⟨v, g⟩ : Constraint R rows)) columns).length := by
      rw [List.length_zipWith]
      exact Nat.lt_min.2 ⟨hv, hg⟩
    have hc := hfinite _ (List.getElem_mem hi)
    rw [List.getElem_zipWith, Constraint.isFinite, Bool.and_eq_true] at hc
    exact hc
  refine ⟨fun v hv ↦ ?_, fun g hg ↦ ?_⟩
  · obtain ⟨i, hi, rfl⟩ := List.getElem_of_mem hv
    exact (hpair i hi (hlength ▸ hi)).1
  · obtain ⟨i, hi, rfl⟩ := List.getElem_of_mem hg
    exact (hpair i (hlength ▸ hi) hi).2

end Jacobian

namespace Evaluation

variable {e : Evaluation R} {x : Vector R n} {o : Observation R n}

/-- The answer is the observation's, and the point is the one that was asked. -/
theorem eq_of_toObservation?_eq_some (h : e.toObservation? x = some o) :
    o.point = x ∧ o.value = e.value ∧ o.grad.toArray = e.grad ∧
      o.ineq.map (·.value) = e.ineq ∧ o.eq.map (·.value) = e.eq := by
  rw [toObservation?] at h
  split at h
  · next hsize =>
    split at h
    · next hineq heq =>
      cases h
      exact ⟨rfl, rfl, rfl, Jacobian.values_of_constraints?_eq_some hineq,
        Jacobian.values_of_constraints?_eq_some heq⟩
    · cases h
  · cases h

/-! ## Shape and finiteness of raw answers -/

/-- The parts of an answer have the sizes of a problem with `n` variables and so many inequalities
and equalities. -/
structure HasShape (e : Evaluation R) (n : Nat) (shape : Nat × Nat) : Prop where
  grad : e.grad.size = n
  ineq : e.ineq.length = shape.1
  ineqGrad : e.ineqGrad.rows = n ∧ e.ineqGrad.columns.length = shape.1
  eq : e.eq.length = shape.2
  eqGrad : e.eqGrad.rows = n ∧ e.eqGrad.columns.length = shape.2

/-- No part of an answer is infinite or not a number. -/
structure IsFinite [Scalar R] (e : Evaluation R) : Prop where
  value : Scalar.isFinite e.value = true
  grad : ∀ v ∈ e.grad, Scalar.isFinite v = true
  ineq : ∀ v ∈ e.ineq, Scalar.isFinite v = true
  ineqGrad : ∀ g ∈ e.ineqGrad.columns, Linear.allFinite g = true
  eq : ∀ v ∈ e.eq, Scalar.isFinite v = true
  eqGrad : ∀ g ∈ e.eqGrad.columns, Linear.allFinite g = true

/-- The three parts that the screen looks at. -/
theorem parts_of_toObservation?_eq_some (h : e.toObservation? x = some o) :
    e.grad.size = n ∧ e.ineqGrad.constraints? n e.ineq = some o.ineq ∧
      e.eqGrad.constraints? n e.eq = some o.eq := by
  rw [toObservation?] at h
  split at h
  · next hsize =>
    split at h
    · next hineq heq =>
      cases h
      exact ⟨hsize, hineq, heq⟩
    · cases h
  · cases h

/-- The screen lets through an answer of the shape of its observation. -/
theorem hasShape_of_toObservation?_eq_some (h : e.toObservation? x = some o) :
    e.HasShape n o.shape := by
  obtain ⟨hgrad, hineq, heq⟩ := parts_of_toObservation?_eq_some h
  have hlength {J : Jacobian R} {values : List R} {cs : List (Constraint R n)}
      (hcs : J.constraints? n values = some cs) :
      values.length = cs.length ∧ J.rows = n ∧ J.columns.length = cs.length := by
    have hvalues : values.length = cs.length := by
      rw [← Jacobian.values_of_constraints?_eq_some hcs, List.length_map]
    obtain ⟨hrows, hcolumns, -⟩ := Jacobian.constraints?_eq_some hcs
    exact ⟨hvalues, hrows, hcolumns.trans hvalues⟩
  exact ⟨hgrad, (hlength hineq).1, (hlength hineq).2, (hlength heq).1, (hlength heq).2⟩

/-- A finite observation was made from a finite answer. -/
theorem isFinite_of_toObservation?_eq_some [Scalar R] (h : e.toObservation? x = some o)
    (hfinite : o.isFinite = true) : e.IsFinite := by
  obtain ⟨-, hvalue, hgrad, -, -⟩ := eq_of_toObservation?_eq_some h
  obtain ⟨-, hineq, heq⟩ := parts_of_toObservation?_eq_some h
  simp only [Observation.isFinite, Bool.and_eq_true, List.all_eq_true] at hfinite
  obtain ⟨⟨⟨hv, hg⟩, hi⟩, he⟩ := hfinite
  refine ⟨hvalue ▸ hv, fun v hv ↦ ?_,
    (Jacobian.isFinite_of_constraints?_eq_some hineq hi).1,
    (Jacobian.isFinite_of_constraints?_eq_some hineq hi).2,
    (Jacobian.isFinite_of_constraints?_eq_some heq he).1,
    (Jacobian.isFinite_of_constraints?_eq_some heq he).2⟩
  rw [← hgrad] at hv
  rw [Linear.allFinite, Vector.all_eq_true] at hg
  obtain ⟨i, hi, rfl⟩ := Array.getElem_of_mem hv
  exact hg i (o.grad.size_toArray ▸ hi)

/-- An answer without constraint values is an observation without constraints. -/
theorem shape_of_no_values (h : e.toObservation? x = some o) (hineq : e.ineq = [])
    (heq : e.eq = []) : o.shape = (0, 0) := by
  obtain ⟨-, -, -, hi, he⟩ := eq_of_toObservation?_eq_some h
  rw [hineq, List.map_eq_nil_iff] at hi
  rw [heq, List.map_eq_nil_iff] at he
  exact Observation.shape_eq_zero_iff.2 ⟨hi, he⟩

end Evaluation

end ExactPenalty
