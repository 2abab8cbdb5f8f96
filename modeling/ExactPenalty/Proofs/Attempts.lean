import ExactPenalty.Direction
import ExactPenalty.Proofs.Action
import ExactPenalty.Proofs.Evaluation
import Mathlib.Logic.Function.Iterate
import Mathlib.Tactic.SplitIfs

/-!
# What an attempt on a rung makes, in any arithmetic

Nothing here needs a law of the arithmetic.  Steering multiplies the penalty parameter by its factor as
often as its answer says (`run_steer_eq_ok`), and nothing else that makes a direction changes it.  A
quadratic program is at fault only on a steering rung where steering is engaged
(`propose_eq_error`), and random numbers are drawn on the random rung only (`generator_propose`).

`attempt_apply` puts an attempt together from the proposal of its rung and the judgement on it, and
every fact about attempts is read off there.
-/

set_option autoImplicit false

namespace ExactPenalty

open ExactPenalty.Action

variable {σ R : Type} [Scalar R] {n : Nat}

/-! ## Steering -/

namespace SteeringOutcome

variable {c : R}
  {attempt : (shrinks : Nat) → (μ : R) → ExceptT QpError (StateM σ) (SteeringOutcome R n)}

theorem orBetter_cases (best : Option (SteeringOutcome R n)) (next : SteeringOutcome R n) :
    orBetter best next = next ∨ best = some (orBetter best next) := by
  cases best with
  | none => exact .inl rfl
  | some b =>
    by_cases hlt : b.predicted < next.predicted
    · exact .inl (if_pos hlt)
    · exact .inr (congrArg some (if_neg hlt).symm)

/-- What holds of every attempt holds of the outcome that is chosen among them. -/
theorem firstAdequate_eq_ok {P : SteeringOutcome R n → Prop} {left shrinks : Nat} {μ : R}
    {best : Option (SteeringOutcome R n)} {s s' : σ} {out : SteeringOutcome R n}
    (hout : (firstAdequate c attempt left shrinks μ best).run s = (.ok out, s'))
    (hbest : ∀ b, best = some b → P b)
    (hattempt : ∀ j < left, ∀ s₁ next s₂,
      (attempt (shrinks + j) ((· * c)^[j] μ)).run s₁ = (.ok next, s₂) → P next) : P out := by
  induction left generalizing shrinks μ best s with
  | zero =>
    cases best with
    | none => cases hout
    | some b =>
      cases hout
      exact hbest _ rfl
  | succ left ih =>
    rw [firstAdequate, run_bind_eq_ok] at hout
    obtain ⟨next, s₁, hnext, hout⟩ := hout
    have hP : P next := hattempt 0 (Nat.succ_pos _) s next s₁ hnext
    split at hout
    · cases hout
      exact hP
    · refine ih hout (fun b hb ↦ ?_) fun j hj s₂ next' s₃ h' ↦ ?_
      · cases hb
        rcases orBetter_cases best next with h | h
        · exact h.symm ▸ hP
        · exact hbest _ h
      · refine hattempt (j + 1) (Nat.succ_lt_succ hj) s₂ next' s₃ ?_
        rwa [Function.iterate_succ_apply, Nat.add_comm j 1, ← Nat.add_assoc]

end SteeringOutcome

/-- **What steering returns**: a direction of the model for the weight it returns with it, and that
weight is the given one, multiplied by the factor as often as it says. -/
theorem run_steer_eq_ok {solve : QpService σ R} {options : SteeringOptions R} {o : Observation R n}
    {h : Mat R n n} {μ : R} {s s' : σ} {out : SteeringOutcome R n}
    (hout : (steer solve options o h μ).run s = (.ok out, s')) :
    out.shrinks ≤ options.maxShrinks ∧ out.mu = (· * options.shrinkFactor)^[out.shrinks] μ ∧
      ∃ s₁ s₂, ((o.steeringModel h).direction solve out.mu).run s₁ = (.ok out.direction, s₂) := by
  rw [steer, run_bind_eq_ok] at hout
  obtain ⟨reference, s₁, -, hout⟩ := hout
  refine SteeringOutcome.firstAdequate_eq_ok (P := fun out ↦ out.shrinks ≤ options.maxShrinks ∧
    out.mu = (· * options.shrinkFactor)^[out.shrinks] μ ∧ ∃ s₁ s₂,
      ((o.steeringModel h).direction solve out.mu).run s₁ = (.ok out.direction, s₂))
    hout (fun b hb ↦ nomatch hb) fun j hj s₂ next s₃ hnext ↦ ?_
  rw [run_bind_eq_ok] at hnext
  obtain ⟨d, s₄, hd, hnext⟩ := hnext
  cases hnext
  exact ⟨by rwa [Nat.zero_add, ← Nat.lt_succ_iff], by rw [Nat.zero_add], s₂, s₃, hd⟩

/-- The program is one over a box. -/
def QuadraticProgram.IsBoxed {m : Nat} (p : QuadraticProgram R m) : Prop :=
  ∃ lower upper, p.feasible = .box lower upper

/-- The solver never has an answer to a program over a box. -/
def QpService.FailsOnBoxes (solve : QpService σ R) : Prop :=
  ∀ {m : Nat} (p : QuadraticProgram R m) (s : σ), p.IsBoxed → ∃ e, (solve p s).1 = .error e

/-- Steering fails with the first program that has no answer, and asks for nothing more. -/
theorem run_steer_of_failsOnBoxes {solve : QpService σ R} (hsolve : solve.FailsOnBoxes)
    (options : SteeringOptions R) (o : Observation R n) (h : Mat R n n) (μ : R) (s : σ) :
    ∃ e, (steer solve options o h μ).run s
      = (.error e, (solve ((o.steeringModel h).program 0) s).2) := by
  obtain ⟨e, he⟩ := hsolve ((o.steeringModel h).program 0) s ⟨_, _, rfl⟩
  have hdirection : ((o.steeringModel h).direction solve 0).run s
      = (.error e, (solve ((o.steeringModel h).program 0) s).2) := by
    rw [SteeringModel.direction, run_bind_apply]
    simp only [ExceptT.run, he]
  refine ⟨e, ?_⟩
  rw [steer, run_bind_apply, hdirection]

omit [Scalar R] in
theorem Observation.isConstrained_eq_false_iff {o : Observation R n} :
    o.isConstrained = false ↔ o.shape = (0, 0) := by
  rw [Observation.shape_eq_zero_iff, isConstrained, constraints, Bool.not_eq_false',
    List.isEmpty_iff, List.append_eq_nil_iff]

/-- Without constraints there is nothing to steer towards. -/
theorem isEngaged_of_shape_eq_zero {o : Observation R n} (h : o.shape = (0, 0))
    (margin : Extended R) : isEngaged o margin = false := by
  rw [isEngaged.eq_def, Observation.isConstrained_eq_false_iff.2 h]
  rfl

/-- The direction that an attempt came to, descending or not. -/
def DirectionAttempt.direction? (attempt : DirectionAttempt R n) : Option (Direction R n) :=
  match attempt.result with
  | .ok d | .error (.nonDescent d) => some d
  | .error _ => none

/-! ## Proposals -/

namespace DirectionContext

variable {ctx : DirectionContext R n} {solve : QpService σ R} {options : SteeringOptions R}
    {level : Level} {μ : R} {g : Generator} {s : σ}

/-- Random numbers are drawn on the random rung only. -/
theorem generator_propose : (ctx.propose solve options level μ g s).1.2
    = if level = .random then (g.components (R := R) n).2 else g := by
  rw [propose.eq_def]
  cases level with
  | steering => cases ctx.engaged <;> rfl
  | steeringIdentity => cases ctx.engaged <;> rfl
  | quasiNewton => rfl
  | steepestDescent => rfl
  | random => rfl

/-- What a rung proposes: the answer of steering, on a steering rung where it is engaged, and otherwise a
vector that was made for the given penalty parameter. -/
theorem propose_cases (ctx : DirectionContext R n) (solve : QpService σ R)
    (options : SteeringOptions R) (level : Level) (μ : R) (g : Generator) (s : σ) :
    (ctx.engaged = true ∧ level.usesSteering = true ∧ ∃ h,
        (ctx.propose solve options level μ g s).1.1
          = ((steer solve options ctx.observation h μ).run s).1.map fun out ↦
              { vector := out.direction, mu := out.mu, steered := some out }) ∨
      (ctx.engaged && level.usesSteering) = false ∧
        ∃ v, (ctx.propose solve options level μ g s).1.1
          = .ok { vector := v, mu := μ, steered := none } := by
  rw [propose.eq_def]
  cases level with
  | steering =>
    cases hengaged : ctx.engaged with
    | true => exact .inl ⟨rfl, rfl, ctx.conditioned, rfl⟩
    | false => exact .inr ⟨rfl, _, rfl⟩
  | steeringIdentity =>
    cases hengaged : ctx.engaged with
    | true => exact .inl ⟨rfl, rfl, .identity R n, rfl⟩
    | false => exact .inr ⟨rfl, _, rfl⟩
  | quasiNewton => exact .inr ⟨Bool.and_false _, _, rfl⟩
  | steepestDescent => exact .inr ⟨Bool.and_false _, _, rfl⟩
  | random => exact .inr ⟨Bool.and_false _, _, rfl⟩

/-- A proposal fails only where steering is engaged, on a rung that steers. -/
theorem propose_eq_error {e : QpError} (h : (ctx.propose solve options level μ g s).1.1 = .error e) :
    ctx.engaged = true ∧ level.usesSteering = true := by
  rcases ctx.propose_cases solve options level μ g s with ⟨hengaged, hlevel, -⟩ | ⟨-, v, hv⟩
  · exact ⟨hengaged, hlevel⟩
  · rw [hv] at h
    cases h

/-- A proposal is made for the given penalty parameter, or for one that steering has shrunk. -/
theorem propose_eq_ok {p : Proposal R n}
    (h : (ctx.propose solve options level μ g s).1.1 = .ok p) :
    p.steered = none ∧ p.mu = μ ∨
      p.steered.isSome = true ∧ ctx.engaged = true ∧ level.usesSteering = true ∧
        ∃ k ≤ options.maxShrinks, p.mu = (· * options.shrinkFactor)^[k] μ := by
  rcases ctx.propose_cases solve options level μ g s with ⟨hengaged, hlevel, m, hsteer⟩ | ⟨-, v, hv⟩
  · rw [hsteer] at h
    rcases hout : (steer solve options ctx.observation m μ).run s with ⟨e | out, s'⟩ <;>
      rw [hout] at h <;> cases h
    obtain ⟨hshrinks, hmu, -⟩ := run_steer_eq_ok hout
    exact .inr ⟨rfl, hengaged, hlevel, out.shrinks, hshrinks, hmu⟩
  · rw [hv] at h
    cases h
    exact .inl ⟨rfl, rfl⟩

/-! ## Attempts -/

/-- A proposal is judged to be no direction, or to be one for the penalty parameter of the proposal,
which is let through or refused. -/
theorem judge_eq (ctx : DirectionContext R n) (lenient : Bool) (level : Level) (p : Proposal R n) :
    ctx.judge lenient level p = .error .degenerate ∨
      ∃ d, d.mu = p.mu ∧
        (ctx.judge lenient level p = .ok d ∨ ctx.judge lenient level p = .error (.nonDescent d)) := by
  rw [judge]
  split
  · exact .inl rfl
  · extract_lets slope turned d
    refine .inr ⟨d, rfl, ?_⟩
    split
    · exact .inl rfl
    · exact .inr rfl

/-- A direction, refused or not, is one of the rung. -/
theorem level_of_judge {lenient : Bool} {p : Proposal R n} {d : Direction R n}
    (h : ctx.judge lenient level p = .ok d ∨ ctx.judge lenient level p = .error (.nonDescent d)) :
    d.level = level := by
  rw [judge] at h
  split at h
  · rcases h with h | h <;> cases h
  · extract_lets slope turned direction at h
    rcases h with h | h <;> split_ifs at h
    · exact congrArg (·.level) (Except.ok.inj h).symm
    · exact congrArg (·.level) (DirectionError.nonDescent.inj (Except.error.inj h)).symm

/-- What an attempt makes of the proposal of its rung. -/
def concluded (ctx : DirectionContext R n) (options : Options R) (level : Level) :
    Except QpError (Proposal R n) → DirectionAttempt R n
  | .error e => { level, steered := none, result := .error (.qp e) }
  | .ok p =>
    { level
      steered := p.steered
      result := ctx.judge (decide (options.search.nondescentLimit ≠ 0)) level p }

theorem attempt_apply (ctx : DirectionContext R n) (solve : QpService σ R) (options : Options R)
    (level : Level) (μ : R) (g : Generator) (s : σ) :
    (ctx.attempt solve options level μ g s).1
      = (ctx.concluded options level (ctx.propose solve options.steering level μ g s).1.1,
          (ctx.propose solve options.steering level μ g s).1.2) := by
  rw [attempt, bind_apply]
  rcases ctx.propose solve options.steering level μ g s with ⟨⟨e | p, g'⟩, s'⟩ <;> rfl

variable {options : Options R}

@[simp] theorem level_attempt :
    (ctx.attempt solve options level μ g s).1.1.level = level := by
  rw [attempt_apply]
  cases (ctx.propose solve options.steering level μ g s).1.1 <;> rfl

/-- A quadratic program is at fault only where steering is engaged, on a rung that steers. -/
theorem result_attempt_eq_qp {e : QpError}
    (h : (ctx.attempt solve options level μ g s).1.1.result = .error (.qp e)) :
    ctx.engaged = true ∧ level.usesSteering = true := by
  rw [attempt_apply] at h
  cases hp : (ctx.propose solve options.steering level μ g s).1.1 with
  | error e => exact propose_eq_error hp
  | ok p =>
    rw [hp, concluded] at h
    rcases ctx.judge_eq (decide (options.search.nondescentLimit ≠ 0)) level p with
      hj | ⟨d, -, hj | hj⟩ <;> rw [hj] at h <;> cases h

/-- An attempt on a rung makes directions of that rung. -/
theorem level_of_direction? {d : Direction R n}
    (h : (ctx.attempt solve options level μ g s).1.1.direction? = some d) : d.level = level := by
  rw [attempt_apply] at h
  cases hp : (ctx.propose solve options.steering level μ g s).1.1 with
  | error e => rw [hp] at h; cases h
  | ok p =>
    rw [hp, DirectionAttempt.direction?, concluded] at h
    dsimp only at h
    split at h
    · cases h
      exact level_of_judge (.inl ‹_›)
    · cases h
      exact level_of_judge (.inr ‹_›)
    · cases h

/-- On a rung that steers, where steering is engaged, an attempt does nothing but ask for the solution of
a program over a box, if that is never given. -/
theorem attempt_of_failsOnBoxes (hsolve : solve.FailsOnBoxes) (hengaged : ctx.engaged = true)
    (hlevel : level.usesSteering = true) (options : Options R) (μ : R) (g : Generator) (s : σ) :
    ∃ (e : QpError) (m : Nat) (p : QuadraticProgram R m), p.IsBoxed ∧
      ctx.attempt solve options level μ g s
        = (({ level, steered := none, result := .error (.qp e) }, g), (solve p s).2) := by
  have hsteered (h : Mat R n n) : ∃ e, ctx.steered solve options.steering h μ s
      = (.error e, (solve ((ctx.observation.steeringModel h).program 0) s).2) := by
    obtain ⟨e, he⟩ := run_steer_of_failsOnBoxes hsolve options.steering ctx.observation h μ s
    refine ⟨e, ?_⟩
    rw [steered, bind_apply, he]
    rfl
  have hattempt {h : Mat R n n}
      (hpropose : ctx.propose solve options.steering level μ g
        = do return (← ctx.steered solve options.steering h μ, g)) :
      ∃ e, ctx.attempt solve options level μ g s
        = (({ level, steered := none, result := .error (.qp e) }, g),
          (solve ((ctx.observation.steeringModel h).program 0) s).2) := by
    obtain ⟨e, he⟩ := hsteered h
    refine ⟨e, ?_⟩
    rw [attempt, hpropose, bind_apply, bind_apply, he]
    rfl
  cases level with
  | steering =>
    obtain ⟨e, he⟩ := hattempt (h := ctx.conditioned) (by rw [propose.eq_def, hengaged])
    exact ⟨e, _, _, ⟨_, _, rfl⟩, he⟩
  | steeringIdentity =>
    obtain ⟨e, he⟩ := hattempt (h := .identity R n) (by rw [propose.eq_def, hengaged])
    exact ⟨e, _, _, ⟨_, _, rfl⟩, he⟩
  | quasiNewton | steepestDescent | random => cases hlevel

/-- A direction is made for the given penalty parameter; or for one that steering has shrunk, and then
the attempt tells that it was steered. -/
theorem result_attempt_eq_ok {d : Direction R n}
    (h : (ctx.attempt solve options level μ g s).1.1.result = .ok d) :
    d.mu = μ ∨ (ctx.attempt solve options level μ g s).1.1.steered.isSome = true ∧
      ctx.engaged = true ∧
        ∃ k ≤ options.steering.maxShrinks, d.mu = (· * options.steering.shrinkFactor)^[k] μ := by
  rw [attempt_apply] at h ⊢
  cases hp : (ctx.propose solve options.steering level μ g s).1.1 with
  | error e => rw [hp] at h; cases h
  | ok p =>
    have hd : d.mu = p.mu := by
      rw [hp, concluded] at h
      rcases ctx.judge_eq (decide (options.search.nondescentLimit ≠ 0)) level p with
        hj | ⟨d', hd', hj | hj⟩ <;> rw [hj] at h <;> cases h
      exact hd'
    rw [hd]
    rcases propose_eq_ok hp with ⟨-, hmu⟩ | ⟨hsteered, hengaged, -, hmu⟩
    · exact .inl hmu
    · exact .inr ⟨hsteered, hengaged, hmu⟩

/-- Where steering is not engaged, nothing is steered, and directions are made for the given penalty
parameter. -/
theorem attempt_of_not_engaged (hengaged : ctx.engaged = false) :
    (ctx.attempt solve options level μ g s).1.1.steered = none ∧
      ∀ d, (ctx.attempt solve options level μ g s).1.1.direction? = some d → d.mu = μ := by
  obtain ⟨h, -⟩ | ⟨-, v, hp⟩ := ctx.propose_cases solve options.steering level μ g s
  · exact absurd (hengaged.symm.trans h) Bool.false_ne_true
  rw [attempt_apply, hp]
  refine ⟨rfl, fun d hd ↦ ?_⟩
  rw [DirectionAttempt.direction?, concluded] at hd
  rcases ctx.judge_eq (decide (options.search.nondescentLimit ≠ 0)) level
    { vector := v, mu := μ, steered := none } with hj | ⟨d', hmu, hj | hj⟩ <;>
    rw [hj] at hd <;> cases hd
  · exact hmu
  · exact hmu

end DirectionContext

end ExactPenalty
