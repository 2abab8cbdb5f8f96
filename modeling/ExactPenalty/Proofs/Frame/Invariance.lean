import Mathlib
import ExactPenalty.Proofs.Frame.Run
import ExactPenalty.Proofs.Run.Definite

/-!
# Neither coordinates nor units matter

The two kinds of frames, and what they say of whole runs.

* `minimize_rigid_motion` — a problem that is rotated and shifted is solved by the rotated and shifted
  iterates, as long as no random direction is drawn.
* `minimize_change_of_unit` — only `μ f` matters: an objective multiplied by `α`, with the penalty
  parameter divided by it, makes the run visit the same points.  This holds of random directions too.
-/

set_option autoImplicit false

namespace ExactPenalty

open Linear Matrix

variable {σ : Type} {n : Nat}

/-! ## Translated results -/

/-- A translated result is an error where the result is one, and the translation where it is not. -/
theorem cases_of_eq_map {ε α β : Type} {f : α → β} {x : Except ε α} {y : Except ε β} (h : y = x.map f) :
    (∀ e, x = .error e → y = .error e) ∧ ∀ a, x = .ok a → y = .ok (f a) := by
  subst h
  constructor
  · rintro e rfl
    rfl
  · rintro a rfl
    rfl

theorem forall₂_toList_map {α β : Type} {P : α → β → Prop} {f : α → β} (h : ∀ a, P a (f a))
    (as : Array α) : List.Forall₂ P as.toList (as.map f).toList := by
  rw [Array.toList_map, List.forall₂_map_right_iff, List.forall₂_same]
  exact fun a _ ↦ h a

/-! ## Rigid motions -/

/-- The second record is that of the first iterate moved by `x ↦ U x + a`.  Its step holds the step
size, the rung, the reattempts and the use of the secant pair. -/
structure IterationRecord.IsMoved (U : Matrix (Fin n) (Fin n) ℝ) (a : Vector ℝ n)
    (r r' : IterationRecord ℝ n) : Prop where
  iteration_eq : r'.iteration = r.iteration
  get_point : r'.iterate.point.get = U *ᵥ r.iterate.point.get + a.get
  value_eq : r'.iterate.value = r.iterate.value
  mu_eq : r'.iterate.mu = r.iterate.mu
  stationarity_eq : r'.stationarity = r.stationarity
  step_eq : r'.step = r.step

/-- The second result is the first one with all iterates moved by `x ↦ U x + a`. -/
structure RunResult.IsMoved (U : Matrix (Fin n) (Fin n) ℝ) (a : Vector ℝ n)
    (r r' : RunResult ℝ n) : Prop where
  termination_eq : r'.termination = r.termination
  iterations_eq : r'.iterations = r.iterations
  evaluations_eq : r'.evaluations = r.evaluations
  mu_eq : r'.final.mu = r.final.mu
  stationarity_eq : r'.stationarity = r.stationarity
  history : List.Forall₂ (IterationRecord.IsMoved U a) r.history.toList r'.history.toList

section Rigid

variable {U : Matrix (Fin n) (Fin n) ℝ} (hU : U ∈ orthogonalGroup (Fin n) ℝ) (a : Vector ℝ n)

theorem Options.inFrame_rigid (o : Options ℝ) : o.inFrame (.rigid hU a) = o := by
  have htarget : o.stopping.target.scaled 1 = o.stopping.target := by
    cases o.stopping.target with
    | negInf => rfl
    | finite b => exact congrArg Extended.finite (mul_one b)
    | posInf => rfl
  show { o with mu0 := o.mu0 / 1, stopping := { o.stopping with target := o.stopping.target.scaled 1 } }
    = o
  rw [htarget, div_one]

theorem IterationRecord.isMoved_inFrame (r : IterationRecord ℝ n) :
    r.IsMoved U a (r.inFrame (.rigid hU a)) where
  iteration_eq := rfl
  get_point := by
    show (Vector.ofFn (U *ᵥ r.iterate.point.get) + a).get = _
    rw [get_add, get_ofFn_eq]
  value_eq := one_mul _
  mu_eq := div_one _
  stationarity_eq := rfl
  step_eq := by
    have hstep (s : StepRecord ℝ) : s.inFrame (.rigid hU a) = s := by
      show { s with mu := s.mu / 1 } = s
      rw [div_one]
    show r.step.map (·.inFrame (.rigid hU a)) = r.step
    simp only [hstep, Option.map_id']

theorem RunResult.isMoved_inFrame (r : RunResult ℝ n) :
    r.IsMoved U a (r.inFrame (.rigid hU a)) where
  termination_eq := rfl
  iterations_eq := rfl
  evaluations_eq := rfl
  mu_eq := div_one _
  stationarity_eq := rfl
  history := forall₂_toList_map (fun record ↦ record.isMoved_inFrame hU a) r.history

/-- **The method does not depend on the coordinates.**  The problem that answers at `U x + a` what the
given one answers at `x`, with rotated gradients, is solved from the moved starting point by the moved
iterates, in the same way throughout; or both runs cannot begin, for the same reason. -/
theorem minimize_rigid_motion (env : Environment σ ℝ n) {options : Options ℝ}
    (hoptions : options.IsValid) (hmax : options.ladder.max ≤ 3)
    (heigen : EigenMethod.IsExact env.eigen) (x₀ : Vector ℝ n) (world : σ) :
    (∀ e, (minimize env options x₀ world).1 = .error e →
      (minimize (env.inFrame (.rigid hU a)) options (.ofFn (U *ᵥ x₀.get) + a) world).1 = .error e) ∧
    ∀ r, (minimize env options x₀ world).1 = .ok r →
      ∃ r', (minimize (env.inFrame (.rigid hU a)) options (.ofFn (U *ᵥ x₀.get) + a) world).1 = .ok r' ∧
        r.IsMoved U a r' := by
  have hrun := minimize_inFrame (.rigid hU a) env hoptions (.inr ⟨heigen, hmax⟩) x₀ world
  rw [options.inFrame_rigid] at hrun
  obtain ⟨herror, hok⟩ := cases_of_eq_map hrun
  exact ⟨herror, fun r hr ↦ ⟨_, hok r hr, r.isMoved_inFrame hU a⟩⟩

end Rigid

/-- The parabola, reflected and shifted. -/
theorem minimize_rigid_motion_parabola :
    (Options.standard : Options ℝ).IsValid ∧ (Options.standard : Options ℝ).ladder.max ≤ 3 ∧
    EigenMethod.IsExact parabola.eigen ∧ ∃ hU : -1 ∈ orthogonalGroup (Fin 1) ℝ, ∃ r r',
      (minimize parabola Options.standard (.replicate 1 1) ()).1 = .ok r ∧
      (minimize (parabola.inFrame (.rigid hU (.replicate 1 3))) Options.standard
        (.ofFn (-1 *ᵥ (Vector.replicate 1 1).get) + .replicate 1 3) ()).1 = .ok r' ∧
      r.IsMoved (-1) (.replicate 1 3) r' := by
  have hU : -1 ∈ orthogonalGroup (Fin 1) ℝ := by simp [mem_orthogonalGroup_iff]
  have hmax : (Options.standard : Options ℝ).ladder.max ≤ 3 := le_refl 3
  obtain ⟨r, s, hrun⟩ := exists_minimize_parabola
  have hresult : (minimize parabola Options.standard (.replicate 1 1) ()).1 = .ok r :=
    congrArg Prod.fst hrun
  obtain ⟨r', hrun', hmoved⟩ := (minimize_rigid_motion hU (.replicate 1 3) parabola
    Options.isValid_standard hmax EigenMethod.exact_isExact (.replicate 1 1) ()).2 r hresult
  exact ⟨Options.isValid_standard, hmax, EigenMethod.exact_isExact, hU, r, r', hresult, hrun', hmoved⟩

/-! ## The unit of the objective -/

/-- The objective and its gradient are multiplied by `α`. -/
noncomputable def Evaluation.rescaled (α : ℝ) (e : Evaluation ℝ) : Evaluation ℝ :=
  { e with value := α * e.value, grad := e.grad.map (α * ·) }

@[inherit_doc Evaluation.rescaled]
noncomputable def Environment.rescaled (α : ℝ) (env : Environment σ ℝ n) : Environment σ ℝ n :=
  { env with evaluate := fun x ↦ Evaluation.rescaled α <$> env.evaluate x }

/-- The initial penalty parameter and the objective target for an objective multiplied by `α`. -/
noncomputable def Options.rescaled (α : ℝ) (o : Options ℝ) : Options ℝ :=
  { o with
    mu0 := o.mu0 / α
    stopping := { o.stopping with target := o.stopping.target.scaled α } }

/-- The second iterate is the first one with its objective multiplied by `α` and its penalty parameter
divided by it.  The constraints, with their gradients, and the penalty function are the same. -/
structure Iterate.IsRescaled (α : ℝ) (it it' : Iterate ℝ n) : Prop where
  point_eq : it'.point = it.point
  value_eq : it'.value = α * it.value
  mu_eq : it'.mu = it.mu / α
  ineq_eq : it'.ineq = it.ineq
  eq_eq : it'.eq = it.eq
  penalty_eq : it'.penalty = it.penalty
  penaltyGrad_eq : it'.penaltyGrad = it.penaltyGrad

/-- The second record is that of the first iterate, rescaled.  The steps differ in the penalty
parameter only. -/
structure IterationRecord.IsRescaled (α : ℝ) (r r' : IterationRecord ℝ n) : Prop where
  iteration_eq : r'.iteration = r.iteration
  iterate : r.iterate.IsRescaled α r'.iterate
  stationarity_eq : r'.stationarity = r.stationarity
  step_eq : r'.step = r.step.map fun step ↦ { step with mu := step.mu / α }

/-- The second result is the first one with all iterates rescaled. -/
structure RunResult.IsRescaled (α : ℝ) (r r' : RunResult ℝ n) : Prop where
  termination_eq : r'.termination = r.termination
  iterations_eq : r'.iterations = r.iterations
  evaluations_eq : r'.evaluations = r.evaluations
  final : r.final.IsRescaled α r'.final
  stationarity_eq : r'.stationarity = r.stationarity
  history : List.Forall₂ (IterationRecord.IsRescaled α) r.history.toList r'.history.toList
  bestFeasible : Option.Rel (Iterate.IsRescaled α) r.tracker.bestFeasible r'.tracker.bestFeasible
  mostFeasible : r.tracker.mostFeasible.IsRescaled α r'.tracker.mostFeasible

section OfUnit

variable {α : ℝ} (hα : 0 < α)

namespace Frame

theorem vec_ofUnit (v : Vector ℝ n) : (ofUnit n hα).vec v = v :=
  (ofUnit n hα).vec_of_rotation_eq_one rfl v

theorem point_ofUnit (x : Vector ℝ n) : (ofUnit n hα).point x = x := by
  rw [point, vec_ofUnit]
  exact ext_get fun i ↦ by simp [ofUnit]

theorem origin_ofUnit (z : Vector ℝ n) : (ofUnit n hα).origin z = z := by
  have horigin := (ofUnit n hα).origin_point z
  rwa [point_ofUnit] at horigin

end Frame

theorem Constraint.inFrame_ofUnit (c : Constraint ℝ n) : c.inFrame (.ofUnit n hα) = c :=
  congrArg (Constraint.mk c.value) (Frame.vec_ofUnit hα c.grad)

theorem Evaluation.inFrame_ofUnit (e : Evaluation ℝ) : e.inFrame (.ofUnit n hα) = e.rescaled α := by
  have hjacobian (J : Jacobian ℝ) : J.inFrame (.ofUnit n hα) = J := by
    obtain ⟨rows, columns⟩ := J
    rw [Jacobian.inFrame]
    split_ifs with hrows
    · subst hrows
      simp [Frame.vec_ofUnit]
    · rfl
  have hgrad : (e.inFrame (.ofUnit n hα)).grad = e.grad.map (α * ·) := by
    show (if h : e.grad.size = n then _ else _) = _
    split_ifs
    · rw [Frame.vec_ofUnit, scale]
      exact congrArg (Array.map · e.grad) (funext fun x ↦ mul_comm x α)
    · rfl
  rw [inFrame, hjacobian, hjacobian]
  exact congrArg (fun grad ↦ { e.rescaled α with grad }) hgrad

theorem Environment.inFrame_ofUnit (env : Environment σ ℝ n) :
    env.inFrame (.ofUnit n hα) = env.rescaled α := by
  have hanswer : Evaluation.inFrame (.ofUnit n hα) = Evaluation.rescaled α :=
    funext (Evaluation.inFrame_ofUnit hα)
  rw [inFrame, rescaled]
  simp only [hanswer, Frame.origin_ofUnit]

theorem Iterate.isRescaled_inFrame (it : Iterate ℝ n) :
    it.IsRescaled α (it.inFrame (.ofUnit n hα)) where
  point_eq := Frame.point_ofUnit hα it.point
  value_eq := rfl
  mu_eq := rfl
  ineq_eq := (List.map_congr_left fun c _ ↦ c.inFrame_ofUnit hα).trans (List.map_id' _)
  eq_eq := (List.map_congr_left fun c _ ↦ c.inFrame_ofUnit hα).trans (List.map_id' _)
  penalty_eq := it.penalty_inFrame _
  penaltyGrad_eq := (it.penaltyGrad_inFrame _).trans (Frame.vec_ofUnit hα _)

theorem RunResult.isRescaled_inFrame (r : RunResult ℝ n) :
    r.IsRescaled α (r.inFrame (.ofUnit n hα)) where
  termination_eq := rfl
  iterations_eq := rfl
  evaluations_eq := rfl
  final := r.final.isRescaled_inFrame hα
  stationarity_eq := rfl
  history := forall₂_toList_map
    (fun record ↦ ⟨rfl, record.iterate.isRescaled_inFrame hα, rfl, rfl⟩) r.history
  bestFeasible := by
    show Option.Rel _ r.tracker.bestFeasible (r.tracker.bestFeasible.map _)
    cases r.tracker.bestFeasible with
    | none => exact .none
    | some best => exact .some (best.isRescaled_inFrame hα)
  mostFeasible := r.tracker.mostFeasible.isRescaled_inFrame hα

include hα

/-- **Only the product of the penalty parameter and the objective matters.**  An objective multiplied by
`α`, with the initial penalty parameter divided by it and the target multiplied, makes a run visit and
remember the same points, in the same way throughout; or both runs cannot begin, for the same
reason. -/
theorem minimize_change_of_unit (env : Environment σ ℝ n) {options : Options ℝ}
    (hoptions : options.IsValid) (x₀ : Vector ℝ n) (world : σ) :
    (∀ e, (minimize env options x₀ world).1 = .error e →
      (minimize (env.rescaled α) (options.rescaled α) x₀ world).1 = .error e) ∧
    ∀ r, (minimize env options x₀ world).1 = .ok r →
      ∃ r', (minimize (env.rescaled α) (options.rescaled α) x₀ world).1 = .ok r' ∧
        r.IsRescaled α r' := by
  have hrun := minimize_inFrame (.ofUnit n hα) env hoptions (.inl rfl) x₀ world
  rw [env.inFrame_ofUnit, Frame.point_ofUnit] at hrun
  obtain ⟨herror, hok⟩ := cases_of_eq_map hrun
  exact ⟨herror, fun r hr ↦ ⟨_, hok r hr, r.isRescaled_inFrame hα⟩⟩

end OfUnit

/-- Twice the parabola. -/
theorem minimize_change_of_unit_parabola :
    (0 : ℝ) < 2 ∧ (Options.standard : Options ℝ).IsValid ∧ ∃ r r',
      (minimize parabola Options.standard (.replicate 1 1) ()).1 = .ok r ∧
      (minimize (parabola.rescaled 2) (Options.standard.rescaled 2) (.replicate 1 1) ()).1 = .ok r' ∧
      r.IsRescaled 2 r' := by
  obtain ⟨r, s, hrun⟩ := exists_minimize_parabola
  have hresult : (minimize parabola Options.standard (.replicate 1 1) ()).1 = .ok r :=
    congrArg Prod.fst hrun
  obtain ⟨r', hrun', hrescaled⟩ := (minimize_change_of_unit two_pos parabola
    Options.isValid_standard (.replicate 1 1) ()).2 r hresult
  exact ⟨two_pos, Options.isValid_standard, r, r', hresult, hrun', hrescaled⟩

end ExactPenalty
