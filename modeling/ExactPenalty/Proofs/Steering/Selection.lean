import Mathlib
import ExactPenalty.Proofs.FirstLeast
import ExactPenalty.Proofs.Steering

/-!
# Which direction steering returns

Steering goes through the weights `μ`, `μ c`, `μ c²`, … and asks the model for a direction at each.  It
stops at the first direction that removes enough, or at the first weight without one, and once the limit is
reached it returns the best of what it has seen.  So three things have to stay together on the way: the
direction, the weight it was made for, and how often that weight was shrunk.

The loop is looked at once.  Attempts that succeed and fall short are passed over, one after the other, and
the best of them is kept (`gives_firstAdequate_add`); what is kept is the first of the least elements of a
list, if less is to remove more (`FirstLeast`).  The rest is what the attempt after them comes to.

None of this needs a law of the arithmetic, but that numbers are ordered where directions are compared.
What a solver answers must not depend on what it was asked before.

## What is here

* `Action.Gives` — the action comes to the same result in every state.
* `SteeringOptions.weight`, `SteeringOptions.outcome` — the weight after so many shrinks, and what steering
  makes of a direction for it.
* `QpService.Answers`, `SteeringModel.answered` — a solver whose answers are a function of the program, and
  the directions it leads to.
* `steer_selects` — what steering returns, for every solver of this kind.
-/

set_option autoImplicit false

namespace ExactPenalty

open Scalar Linear Matrix ExactPenalty.Action

variable {σ R : Type}

/-! ## Results that do not depend on the state -/

namespace Action

variable {ε α β : Type}

/-- The action comes to the same result in every state. -/
def Gives (x : ExceptT ε (StateM σ) α) (r : Except ε α) : Prop := ∀ s, (x.run s).1 = r

namespace Gives

theorem pure (a : α) : Gives (Pure.pure a : ExceptT ε (StateM σ) α) (.ok a) := fun _ ↦ rfl

variable {x : ExceptT ε (StateM σ) α} {f : α → ExceptT ε (StateM σ) β}

theorem bind {a : α} {r : Except ε β} (hx : Gives x (.ok a)) (hf : Gives (f a) r) :
    Gives (x >>= f) r := by
  intro s
  rw [run_bind_apply, hx s]
  exact hf _

theorem bind_error {e : ε} (hx : Gives x (.error e)) : Gives (x >>= f) (.error e) := by
  intro s
  rw [run_bind_apply, hx s]

end Gives

end Action

variable [Scalar R] {n : Nat}

/-! ## Passing over what falls short -/

namespace SteeringOutcome

variable {c : R}
  {attempt : (shrinks : Nat) → (μ : R) → ExceptT QpError (StateM σ) (SteeringOutcome R n)}
  {left shrinks : Nat} {μ : R} {best : Option (SteeringOutcome R n)} {next : SteeringOutcome R n}

theorem gives_firstAdequate_of_error {e : QpError} (h : Gives (attempt shrinks μ) (.error e)) :
    Gives (firstAdequate c attempt (left + 1) shrinks μ best) (.error e) := by
  rw [firstAdequate]
  exact .bind_error h

theorem gives_firstAdequate_of_adequate (h : Gives (attempt shrinks μ) (.ok next))
    (hnext : next.adequate = true) :
    Gives (firstAdequate c attempt (left + 1) shrinks μ best) (.ok next) := by
  rw [firstAdequate]
  refine .bind h ?_
  rw [if_pos hnext]
  exact .pure next

theorem gives_firstAdequate_succ {r : Except QpError (SteeringOutcome R n)}
    (h : Gives (attempt shrinks μ) (.ok next)) (hnext : next.adequate = false)
    (hrest : Gives (firstAdequate c attempt left (shrinks + 1) (μ * c) (some (orBetter best next))) r) :
    Gives (firstAdequate c attempt (left + 1) shrinks μ best) r := by
  rw [firstAdequate]
  refine .bind h ?_
  rw [if_neg (Bool.eq_false_iff.1 hnext)]
  exact hrest

/-- **There is always a direction to return**: once an attempt is made, an error is that of an attempt. -/
theorem exists_of_firstAdequate_eq_error {s s' : σ} {e : QpError} (hmade : 0 < left ∨ best.isSome = true)
    (he : (firstAdequate c attempt left shrinks μ best).run s = (.error e, s')) :
    ∃ j < left, ∃ s₁ s₂, (attempt (shrinks + j) ((· * c)^[j] μ)).run s₁ = (.error e, s₂) := by
  induction left generalizing shrinks μ best s with
  | zero =>
    obtain ⟨b, rfl⟩ := Option.isSome_iff_exists.1 (hmade.resolve_left (Nat.lt_irrefl 0))
    cases he
  | succ left ih =>
    rw [firstAdequate, run_bind_apply] at he
    split at he
    · split at he
      · cases he
      · obtain ⟨j, hj, s₁, s₂, hattempt⟩ := ih (.inr rfl) he
        rw [← Function.iterate_succ_apply, Nat.add_assoc, Nat.add_comm 1] at hattempt
        exact ⟨j + 1, Nat.succ_lt_succ hj, s₁, s₂, hattempt⟩
    · next e' hattempt =>
      cases he
      exact ⟨0, Nat.succ_pos _, s, _, Prod.ext hattempt rfl⟩

/-- What is kept of the first `J` outcomes. -/
def bestOf (outs : ℕ → SteeringOutcome R n) (J : ℕ) : Option (SteeringOutcome R n) :=
  ((List.range J).map outs).foldl (fun best next ↦ some (orBetter best next)) none

theorem bestOf_succ (outs : ℕ → SteeringOutcome R n) (J : ℕ) :
    bestOf outs (J + 1) = some (orBetter (bestOf outs J) (outs J)) := by
  rw [bestOf, List.range_succ, List.map_append, List.map_singleton, List.foldl_concat]
  rfl

/-- **Attempts that fall short are passed over**, and the best of them is kept. -/
theorem gives_firstAdequate_add {outs : ℕ → SteeringOutcome R n} {J : ℕ}
    {r : Except QpError (SteeringOutcome R n)}
    (houts : ∀ j < J, Gives (attempt j ((· * c)^[j] μ)) (.ok (outs j)) ∧ (outs j).adequate = false)
    (hrest : Gives (firstAdequate c attempt left J ((· * c)^[J] μ) (bestOf outs J)) r) :
    Gives (firstAdequate c attempt (J + left) 0 μ none) r := by
  induction J generalizing left with
  | zero =>
    rw [Nat.zero_add]
    exact hrest
  | succ J ih =>
    obtain ⟨hJ, hshort⟩ := houts J (Nat.lt_succ_self J)
    rw [Nat.add_right_comm, Nat.add_assoc]
    refine ih (fun j hj ↦ houts j (Nat.lt_succ_of_lt hj)) (gives_firstAdequate_succ hJ hshort ?_)
    rwa [bestOf_succ, Function.iterate_succ_apply'] at hrest

/-- The best of the outcomes is the earliest of those that remove most. -/
theorem exists_of_bestOf_eq_some (horder : IsOrdered R) {outs : ℕ → SteeringOutcome R n} {N : ℕ}
    {out : SteeringOutcome R n} (hnumber : ∀ j < N, isNaN (outs j).predicted = false)
    (hout : bestOf outs N = some out) :
    ∃ j < N, outs j = out ∧ ∀ i < N, (outs i).predicted ≤ (outs j).predicted ∧
      (i < j → (outs i).predicted < (outs j).predicted) := by
  have hmore : OrdersOn (fun a b : SteeringOutcome R n ↦ b.predicted < a.predicted)
      {a | isNaN a.predicted = false} :=
    ⟨fun a ha b hb hlt ↦ horder.asymm hlt, fun a ha b hb c hc hlt ↦ (horder.lt_or_lt hc hlt).symm⟩
  have hfold : (fun best next ↦ some (orBetter best next))
      = keepLess (fun a b : SteeringOutcome R n ↦ b.predicted < a.predicted) fun _ ↦ true := by
    funext best next
    cases best with
    | none => rfl
    | some b => exact apply_ite some _ _ _
  rw [bestOf, hfold] at hout
  have hfirst := isFirstLeast_of_foldl hmore (fun b hb _ ↦ ?_) hout
  · obtain ⟨j, hj, heq, hall⟩ := hfirst.exists_index hmore hnumber
    refine ⟨j, hj, heq, fun i hi ↦ ⟨?_, (hall i hi).2⟩⟩
    exact (horder.not_lt_iff (hnumber j hj) (hnumber i hi)).1 (hall i hi).1
  · obtain ⟨i, hi, rfl⟩ := List.mem_map.1 hb
    exact hnumber i (List.mem_range.1 hi)

end SteeringOutcome

/-! ## The attempts of steering -/

/-- The weight after so many shrinks. -/
def SteeringOptions.weight (options : SteeringOptions R) (μ : R) (shrinks : ℕ) : R :=
  (· * options.shrinkFactor)^[shrinks] μ

theorem SteeringOptions.weight_real (options : SteeringOptions ℝ) (μ : ℝ) (shrinks : ℕ) :
    options.weight μ shrinks = μ * options.shrinkFactor ^ shrinks := by
  rw [weight, mul_right_iterate]

/-- The direction `d` removes the fraction that is asked for of what `d₀` removes. -/
def SteeringOptions.Suffices (options : SteeringOptions R) (o : Observation R n) (d₀ d : Vector R n) :
    Prop :=
  options.violationFraction * o.predictedReduction options.l1Model d₀
    ≤ o.predictedReduction options.l1Model d

instance SteeringOptions.instDecidableSuffices (options : SteeringOptions R) (o : Observation R n)
    (d₀ d : Vector R n) : Decidable (options.Suffices o d₀ d) :=
  inferInstanceAs (Decidable (_ ≤ _))

/-- What steering says of the direction `d` for the weight `μ`, where that of weight zero is `d₀`. -/
def SteeringOptions.outcome (options : SteeringOptions R) (o : Observation R n) (d₀ : Vector R n)
    (shrinks : ℕ) (μ : R) (d : Vector R n) (adequate : Bool) : SteeringOutcome R n where
  direction := d
  mu := μ
  predicted := o.predictedReduction options.l1Model d
  reference := o.predictedReduction options.l1Model d₀
  target := options.violationFraction * o.predictedReduction options.l1Model d₀
  shrinks := shrinks
  adequate := adequate

section Steer

variable {solve : QpService σ R} {options : SteeringOptions R} {o : Observation R n}
  {h : Mat R n n} {μ : R} {d₀ : Vector R n}

/-- The attempt at one weight. -/
def steeringAttempt (solve : QpService σ R) (options : SteeringOptions R) (o : Observation R n)
    (h : Mat R n n) (d₀ : Vector R n) (shrinks : ℕ) (μ : R) :
    ExceptT QpError (StateM σ) (SteeringOutcome R n) := do
  let d ← (o.steeringModel h).direction solve μ
  return options.outcome o d₀ shrinks μ d (decide (options.Suffices o d₀ d))

/-- Steering fails with the direction of weight zero … -/
theorem gives_steer_of_error {e : QpError}
    (he : Gives ((o.steeringModel h).direction solve 0) (.error e)) :
    Gives (steer solve options o h μ) (.error e) := by
  rw [steer]
  exact .bind_error he

/-- … and otherwise does what the attempts come to. -/
theorem gives_steer {r : Except QpError (SteeringOutcome R n)}
    (h₀ : Gives ((o.steeringModel h).direction solve 0) (.ok d₀))
    (hr : Gives (SteeringOutcome.firstAdequate options.shrinkFactor
      (steeringAttempt solve options o h d₀) (options.maxShrinks + 1) 0 μ none) r) :
    Gives (steer solve options o h μ) r := by
  rw [steer]
  exact .bind h₀ hr

/-- What steering returns tells what the direction of weight zero removes. -/
theorem reference_of_steer_eq_ok {s s' : σ} {out : SteeringOutcome R n}
    (h₀ : Gives ((o.steeringModel h).direction solve 0) (.ok d₀))
    (hout : (steer solve options o h μ).run s = (.ok out, s')) :
    out.reference = o.predictedReduction options.l1Model d₀ ∧
      out.target = options.violationFraction * out.reference := by
  rw [steer, run_bind_apply, h₀ s] at hout
  refine SteeringOutcome.firstAdequate_eq_ok (P := fun out ↦
    out.reference = o.predictedReduction options.l1Model d₀ ∧
      out.target = options.violationFraction * out.reference)
    hout (fun b hb ↦ by cases hb) fun j hj s₁ next s₂ hnext ↦ ?_
  obtain ⟨d, s₃, -, hnext⟩ := run_bind_eq_ok.1 hnext
  cases hnext
  exact ⟨rfl, rfl⟩

/-- The first `J` weights have the directions `d`, and none of those removes enough. -/
def FallShort (solve : QpService σ R) (options : SteeringOptions R) (o : Observation R n)
    (h : Mat R n n) (d₀ : Vector R n) (μ : R) (J : ℕ) (d : ℕ → Vector R n) : Prop :=
  ∀ j < J, Gives ((o.steeringModel h).direction solve (options.weight μ j)) (.ok (d j)) ∧
    ¬ options.Suffices o d₀ (d j)

variable {J : ℕ} {d : ℕ → Vector R n}

theorem FallShort.gives_attempt (hshort : FallShort solve options o h d₀ μ J d) :
    ∀ j < J, Gives (steeringAttempt solve options o h d₀ j ((· * options.shrinkFactor)^[j] μ))
        (.ok (options.outcome o d₀ j (options.weight μ j) (d j) false)) ∧
      (options.outcome o d₀ j (options.weight μ j) (d j) false).adequate = false := by
  refine fun j hj ↦ ⟨.bind (hshort j hj).1 ?_, rfl⟩
  rw [decide_eq_false (hshort j hj).2]
  exact .pure _

section Reached

variable (h₀ : Gives ((o.steeringModel h).direction solve 0) (.ok d₀))
  (hshort : FallShort solve options o h d₀ μ J d)

include h₀ hshort

/-- The first direction that removes enough is returned … -/
theorem gives_steer_of_suffices (hJ : J ≤ options.maxShrinks) {dJ : Vector R n}
    (hd : Gives ((o.steeringModel h).direction solve (options.weight μ J)) (.ok dJ))
    (henough : options.Suffices o d₀ dJ) :
    Gives (steer solve options o h μ)
      (.ok (options.outcome o d₀ J (options.weight μ J) dJ true)) := by
  have hattempt : Gives (steeringAttempt solve options o h d₀ J (options.weight μ J))
      (.ok (options.outcome o d₀ J (options.weight μ J) dJ true)) := by
    refine .bind hd ?_
    rw [decide_eq_true henough]
    exact .pure _
  obtain ⟨left, hleft⟩ := Nat.exists_eq_add_of_le hJ
  refine gives_steer h₀ ?_
  rw [hleft, Nat.add_assoc]
  exact SteeringOutcome.gives_firstAdequate_add hshort.gives_attempt
    (SteeringOutcome.gives_firstAdequate_of_adequate hattempt rfl)

/-- … a weight without a direction ends the search … -/
theorem gives_steer_of_failed (hJ : J ≤ options.maxShrinks) {e : QpError}
    (he : Gives ((o.steeringModel h).direction solve (options.weight μ J)) (.error e)) :
    Gives (steer solve options o h μ) (.error e) := by
  obtain ⟨left, hleft⟩ := Nat.exists_eq_add_of_le hJ
  refine gives_steer h₀ ?_
  rw [hleft, Nat.add_assoc]
  exact SteeringOutcome.gives_firstAdequate_add hshort.gives_attempt
    (SteeringOutcome.gives_firstAdequate_of_error (.bind_error he))

/-- … and if all weights have been tried, the earliest of the best directions is returned. -/
theorem gives_steer_of_exhausted (hJ : J = options.maxShrinks + 1) (horder : IsOrdered R)
    (hnumber : ∀ j ≤ options.maxShrinks,
      isNaN (o.predictedReduction options.l1Model (d j)) = false) :
    ∃ j ≤ options.maxShrinks,
      Gives (steer solve options o h μ)
        (.ok (options.outcome o d₀ j (options.weight μ j) (d j) false)) ∧
      ∀ i ≤ options.maxShrinks,
        o.predictedReduction options.l1Model (d i) ≤ o.predictedReduction options.l1Model (d j) ∧
          (i < j → o.predictedReduction options.l1Model (d i)
            < o.predictedReduction options.l1Model (d j)) := by
  subst hJ
  let outs (j : ℕ) : SteeringOutcome R n := options.outcome o d₀ j (options.weight μ j) (d j) false
  have hbest := SteeringOutcome.bestOf_succ outs options.maxShrinks
  obtain ⟨j, hj, hout, hmost⟩ := SteeringOutcome.exists_of_bestOf_eq_some horder
    (fun j hj ↦ hnumber j (Nat.lt_succ_iff.1 hj)) hbest
  have hrest : Gives (SteeringOutcome.firstAdequate options.shrinkFactor
      (steeringAttempt solve options o h d₀) 0 (options.maxShrinks + 1)
      ((· * options.shrinkFactor)^[options.maxShrinks + 1] μ)
      (SteeringOutcome.bestOf outs (options.maxShrinks + 1))) (.ok (outs j)) := by
    rw [hbest, hout]
    exact .pure _
  refine ⟨j, Nat.lt_succ_iff.1 hj, gives_steer h₀ ?_, fun i hi ↦ hmost i (Nat.lt_succ_iff.2 hi)⟩
  exact SteeringOutcome.gives_firstAdequate_add (J := options.maxShrinks + 1) hshort.gives_attempt hrest

end Reached

/-- An error of steering is that of some direction, for the weight zero or a weight that was tried. -/
theorem exists_of_steer_eq_error {s s' : σ} {e : QpError}
    (he : (steer solve options o h μ).run s = (.error e, s')) :
    ∃ ν s₁ s₂, (ν = 0 ∨ ∃ j ≤ options.maxShrinks, ν = options.weight μ j) ∧
      ((o.steeringModel h).direction solve ν).run s₁ = (.error e, s₂) := by
  rw [steer, run_bind_apply] at he
  split at he
  · obtain ⟨j, hj, s₁, s₂, hattempt⟩ :=
      SteeringOutcome.exists_of_firstAdequate_eq_error (.inl (Nat.succ_pos _)) he
    rw [run_bind_apply] at hattempt
    split at hattempt
    · cases hattempt
    · next e' hdirection =>
      cases hattempt
      exact ⟨_, s₁, _, .inr ⟨j, Nat.lt_succ_iff.1 hj, rfl⟩, Prod.ext hdirection rfl⟩
  · next e' hdirection =>
    cases he
    exact ⟨0, s, _, .inl rfl, Prod.ext hdirection rfl⟩

end Steer

/-! ## Solvers whose answers are a function of the program -/

/-- The solver answers the same program alike, whatever it was asked before. -/
def QpService.Answers (solve : QpService σ R)
    (answer : {m : ℕ} → QuadraticProgram R m → Except QpError (Vector R m)) : Prop :=
  ∀ {m : ℕ} (p : QuadraticProgram R m) (s : σ), (solve p s).1 = answer p

namespace SteeringModel

variable {m : ℕ}

/-- The direction that the answers of a solver lead to: an error of the solver, or of what is made of its
answer. -/
def answered (model : SteeringModel R n m)
    (answer : {m : ℕ} → QuadraticProgram R m → Except QpError (Vector R m)) (μ : R) :
    Except QpError (Vector R n) := do
  let y ← answer (model.program μ)
  let d := model.directionOf μ y
  if allFinite d then return d else throw .nonFiniteData

theorem answered_eq_error {model : SteeringModel R n m}
    {answer : {m : ℕ} → QuadraticProgram R m → Except QpError (Vector R m)} {μ : R} {e : QpError}
    (he : model.answered answer μ = .error e) :
    e = .nonFiniteData ∨ answer (model.program μ) = .error e := by
  rw [answered] at he
  cases hy : answer (model.program μ) with
  | error e' =>
    rw [hy] at he
    cases he
    exact .inr rfl
  | ok y =>
    rw [hy] at he
    change (if allFinite (model.directionOf μ y) then _ else _) = _ at he
    split at he <;> cases he
    exact .inl rfl

theorem gives_direction {solve : QpService σ R}
    {answer : {m : ℕ} → QuadraticProgram R m → Except QpError (Vector R m)}
    (hsolve : solve.Answers answer) (model : SteeringModel R n m) (μ : R) :
    Gives (model.direction solve μ) (model.answered answer μ) := by
  intro s
  have hs : (ExceptT.run (m := StateM σ) (solve (model.program μ)) s).1 = answer (model.program μ) :=
    hsolve (model.program μ) s
  rw [direction, run_bind_apply, hs, answered]
  cases answer (model.program μ) with
  | error e => rfl
  | ok y =>
    show _ = if allFinite (model.directionOf μ y) then _ else _
    dsimp only
    split <;> rfl

end SteeringModel

/-! ## Selection -/

/-- **Steering returns the first direction that removes enough, or else the earliest of the best.**  Let
the answers of the solver be a function of the program, and let `d₀` be the direction of weight zero.

* Without `d₀` its error is returned.
* If the weights before the `J`-th have directions which do not remove enough, then at the `J`-th weight a
  direction that does is returned, with its own weight and shrinks; and where there is no direction for that
  weight, the error is returned in spite of the directions before.
* If all weights have directions and none removes enough, one of them is returned which removes most, and
  more than all before it.
* Every error is that of `d₀` or of the direction for one of the weights.  In particular steering never
  fails for want of a direction, unless that is what the solver answered. -/
theorem steer_selects (horder : IsOrdered R) {solve : QpService σ R}
    {answer : {m : ℕ} → QuadraticProgram R m → Except QpError (Vector R m)}
    (hsolve : solve.Answers answer) (options : SteeringOptions R) (o : Observation R n)
    (h : Mat R n n) (μ : R) (s : σ) :
    (∀ e, (o.steeringModel h).answered answer 0 = .error e →
      ((steer solve options o h μ).run s).1 = .error e) ∧
    (∀ d₀, (o.steeringModel h).answered answer 0 = .ok d₀ →
      (∀ J ≤ options.maxShrinks,
        (∀ j < J, ∃ d, (o.steeringModel h).answered answer (options.weight μ j) = .ok d ∧
          ¬ options.Suffices o d₀ d) →
        (∀ d, (o.steeringModel h).answered answer (options.weight μ J) = .ok d →
          options.Suffices o d₀ d →
          ((steer solve options o h μ).run s).1
            = .ok (options.outcome o d₀ J (options.weight μ J) d true)) ∧
        (∀ e, (o.steeringModel h).answered answer (options.weight μ J) = .error e →
          ((steer solve options o h μ).run s).1 = .error e)) ∧
      (∀ d : ℕ → Vector R n,
        (∀ j ≤ options.maxShrinks,
          (o.steeringModel h).answered answer (options.weight μ j) = .ok (d j) ∧
            ¬ options.Suffices o d₀ (d j) ∧
            isNaN (o.predictedReduction options.l1Model (d j)) = false) →
        ∃ j ≤ options.maxShrinks,
          ((steer solve options o h μ).run s).1
            = .ok (options.outcome o d₀ j (options.weight μ j) (d j) false) ∧
          ∀ i ≤ options.maxShrinks,
            o.predictedReduction options.l1Model (d i) ≤ o.predictedReduction options.l1Model (d j) ∧
              (i < j → o.predictedReduction options.l1Model (d i)
                < o.predictedReduction options.l1Model (d j)))) ∧
    (∀ e, ((steer solve options o h μ).run s).1 = .error e →
      (o.steeringModel h).answered answer 0 = .error e ∨
        ∃ j ≤ options.maxShrinks,
          (o.steeringModel h).answered answer (options.weight μ j) = .error e) ∧
    ((∀ {m : ℕ} (p : QuadraticProgram R m), answer p ≠ .error (.unsolved "no steering direction")) →
      ((steer solve options o h μ).run s).1 ≠ .error (.unsolved "no steering direction")) := by
  have hdirection (ν : R) := SteeringModel.gives_direction hsolve (o.steeringModel h) ν
  have herror (e : QpError) (he : ((steer solve options o h μ).run s).1 = .error e) :
      ∃ ν, (ν = 0 ∨ ∃ j ≤ options.maxShrinks, ν = options.weight μ j) ∧
        (o.steeringModel h).answered answer ν = .error e := by
    obtain ⟨ν, s₁, s₂, hν, hfailed⟩ := exists_of_steer_eq_error (Prod.ext he rfl)
    exact ⟨ν, hν, (hdirection ν s₁).symm.trans (congrArg Prod.fst hfailed)⟩
  refine ⟨fun e he ↦ gives_steer_of_error (he ▸ hdirection 0) s, fun d₀ hd₀ ↦ ⟨?_, ?_⟩, ?_, ?_⟩
  · intro J hJ hbefore
    choose! d hd using hbefore
    have hshort : FallShort solve options o h d₀ μ J d :=
      fun j hj ↦ ⟨(hd j hj).1 ▸ hdirection _, (hd j hj).2⟩
    refine ⟨fun dJ hdJ henough ↦ ?_, fun e he ↦ ?_⟩
    · exact gives_steer_of_suffices (hd₀ ▸ hdirection 0) hshort hJ (hdJ ▸ hdirection _) henough s
    · exact gives_steer_of_failed (hd₀ ▸ hdirection 0) hshort hJ (he ▸ hdirection _) s
  · intro d hd
    have hshort : FallShort solve options o h d₀ μ (options.maxShrinks + 1) d := fun j hj ↦
      ⟨(hd j (Nat.lt_succ_iff.1 hj)).1 ▸ hdirection _, (hd j (Nat.lt_succ_iff.1 hj)).2.1⟩
    obtain ⟨j, hj, hout, hmost⟩ := gives_steer_of_exhausted (hd₀ ▸ hdirection 0) hshort rfl horder
      fun j hj ↦ (hd j hj).2.2
    exact ⟨j, hj, hout s, hmost⟩
  · intro e he
    obtain ⟨ν, rfl | ⟨j, hj, rfl⟩, hν⟩ := herror e he
    · exact .inl hν
    · exact .inr ⟨j, hj, hν⟩
  · intro hanswer he
    obtain ⟨ν, -, hν⟩ := herror _ he
    rcases SteeringModel.answered_eq_error hν with hν | hν
    · cases hν
    · exact hanswer _ hν

/-- An inequality that is violated, on the line: the half-line beyond one, seen from zero. -/
noncomputable def halfLine : Observation ℝ 1 where
  point := Vector.replicate 1 0
  value := 0
  grad := Vector.replicate 1 1
  ineq := [⟨1, Vector.replicate 1 (-1)⟩]
  eq := []

/-- The solver that knows one answer. -/
def onesService : QpService Unit ℝ := fun {m} _ s ↦ (.ok (Vector.replicate m 1), s)

theorem jacobian_halfLine (i : Fin 1) :
    (halfLine.jacobian.toMatrix *ᵥ (Vector.replicate halfLine.constraints.length (1 : ℝ)).get) i
      = -1 := by
  simp only [mulVec, dotProduct, Observation.toMatrix_jacobian, get_replicate, mul_one]
  exact (Fin.sum_univ_one _).trans (get_replicate (-1) i)

theorem directionOf_halfLine (μ : ℝ) :
    (halfLine.steeringModel (.identity ℝ 1)).directionOf μ
      (Vector.replicate halfLine.constraints.length 1) = Vector.replicate 1 (1 - μ) := by
  refine ext_get fun i ↦ ?_
  have hgrad : halfLine.grad.get i = 1 := get_replicate 1 i
  rw [Observation.directionOf_eq, get_neg, Mat.get_mulVec, Mat.toMatrix_identity, one_mulVec,
    Observation.get_lagrangianGrad, Pi.neg_apply, Pi.add_apply, Pi.smul_apply, jacobian_halfLine,
    hgrad, get_replicate, smul_eq_mul]
  ring

theorem answered_halfLine (μ : ℝ) :
    (halfLine.steeringModel (.identity ℝ 1)).answered (fun {m} _ ↦ .ok (Vector.replicate m 1)) μ
      = .ok (Vector.replicate 1 (1 - μ)) := by
  show (if allFinite _ then _ else _) = _
  rw [allFinite_real, if_pos rfl, directionOf_halfLine]
  rfl

theorem predictedReduction_halfLine {t : ℝ} (ht : t ≤ 1) :
    halfLine.predictedReduction true (Vector.replicate 1 t) = t := by
  have hvalue : halfLine.violation true = 1 := by
    simp [Observation.violation, Observation.tvL1, violationL1, halfLine]
  have hlinearized : halfLine.linearizedViolation (Vector.replicate 1 t) true = 1 - t := by
    simp only [Observation.linearizedViolation, violationL1, halfLine, Constraint.linearized,
      plainDot_eq, dotProduct, Fin.sum_univ_one, get_replicate, if_true, List.map_cons, List.map_nil,
      List.foldl_cons, List.foldl_nil, larger_real]
    rw [neg_one_mul, ← sub_eq_add_neg, max_eq_left (sub_nonneg.2 ht), zero_add, add_zero]
  rw [Observation.predictedReduction, hvalue, hlinearized]
  ring

/-- The weight one is shrunk once; if that is not allowed, its direction is returned all the same. -/
theorem steer_selects_halfLine :
    IsOrdered ℝ ∧ onesService.Answers (fun {m} _ ↦ .ok (Vector.replicate m 1)) ∧
    ((steer onesService Options.standard.steering halfLine (.identity ℝ 1) 1).run ()).1
      = .ok (Options.standard.steering.outcome halfLine (Vector.replicate 1 1) 1 (9 / 10)
          (Vector.replicate 1 (1 / 10)) true) ∧
    ((steer onesService { Options.standard.steering with maxShrinks := 0 } halfLine (.identity ℝ 1)
        1).run ()).1
      = .ok (Options.standard.steering.outcome halfLine (Vector.replicate 1 1) 0 1
          (Vector.replicate 1 0) false) := by
  have hservice : onesService.Answers (fun {m} _ ↦ .ok (Vector.replicate m 1)) := fun _ _ ↦ rfl
  let options : SteeringOptions ℝ := (Options.standard : Options ℝ).steering
  have hsuffices {t : ℝ} (ht : t ≤ 1) :
      options.Suffices halfLine (Vector.replicate 1 1) (Vector.replicate 1 t) ↔ 1 / 10 ≤ t := by
    have hfraction : options.violationFraction = 1 / 10 := by norm_num [options, Options.standard]
    show options.violationFraction * halfLine.predictedReduction true _
      ≤ halfLine.predictedReduction true _ ↔ _
    rw [predictedReduction_halfLine le_rfl, predictedReduction_halfLine ht, mul_one, hfraction]
  have hzero : (halfLine.steeringModel (.identity ℝ 1)).answered
      (fun {m} _ ↦ .ok (Vector.replicate m 1)) 0 = .ok (Vector.replicate 1 1) := by
    rw [answered_halfLine, sub_zero]
  have hfull : (halfLine.steeringModel (.identity ℝ 1)).answered
      (fun {m} _ ↦ .ok (Vector.replicate m 1)) 1 = .ok (Vector.replicate 1 0) := by
    rw [answered_halfLine, sub_self]
  have hnot : ¬ options.Suffices halfLine (Vector.replicate 1 1) (Vector.replicate 1 0) := by
    rw [hsuffices zero_le_one]
    norm_num
  refine ⟨isOrdered_real, hservice, ?_, ?_⟩
  · have hweight : options.weight 1 1 = 9 / 10 := by
      rw [SteeringOptions.weight_real]
      norm_num [options, Options.standard]
    have hshrunk : (halfLine.steeringModel (.identity ℝ 1)).answered
        (fun {m} _ ↦ .ok (Vector.replicate m 1)) (options.weight 1 1)
          = .ok (Vector.replicate 1 (1 / 10)) := by
      have hrest : (1 : ℝ) - 9 / 10 = 1 / 10 := by norm_num
      rw [hweight, answered_halfLine, hrest]
    obtain ⟨-, hselect, -⟩ :=
      steer_selects isOrdered_real hservice options halfLine (.identity ℝ 1) 1 ()
    have hout := ((hselect _ hzero).1 1 (by decide) fun j hj ↦ ?_).1 _ hshrunk
      ((hsuffices (by norm_num)).2 le_rfl)
    · rwa [hweight] at hout
    · rw [Nat.lt_one_iff.1 hj]
      exact ⟨_, hfull, hnot⟩
  · obtain ⟨-, hselect, -⟩ := steer_selects isOrdered_real hservice
      { options with maxShrinks := 0 } halfLine (.identity ℝ 1) 1 ()
    obtain ⟨j, hj, hout, -⟩ := (hselect _ hzero).2 (fun _ ↦ Vector.replicate 1 0) fun j hj ↦ by
      rw [Nat.le_zero.1 hj]
      exact ⟨hfull, hnot, rfl⟩
    rw [Nat.le_zero.1 hj] at hout
    exact hout

end ExactPenalty
