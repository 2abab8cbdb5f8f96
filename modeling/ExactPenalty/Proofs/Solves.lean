import ExactPenalty.Proofs.Service

/-!
# How many quadratic programs are solved

`Costs count k x` says that an action raises a count of the state by `k` at most, whatever it returns;
what the parts of a sequence cost, the sequence costs together.  The count here is that of the
quadratic programs (`QpService.Counts`).  Steering solves one for the direction of weight zero, one for
the weight it is given, and one for each time that it shrinks the weight (`costs_steer`).  No other
direction takes any, and the stationarity measure takes one at most.
-/

set_option autoImplicit false

namespace ExactPenalty

/-! ## What an action costs -/

namespace Action

variable {σ α β : Type} {count : σ → Nat} {k l : Nat}

/-- The action raises a count of the state by so much at most. -/
def Costs (count : σ → Nat) (k : Nat) (x : StateM σ α) : Prop := ∀ s, count (x s).2 ≤ count s + k

namespace Costs

theorem mono {x : StateM σ α} (h : Costs count k x) (hkl : k ≤ l) : Costs count l x :=
  fun s ↦ Nat.le_trans (h s) (Nat.add_le_add_left hkl _)

theorem pure (a : α) : Costs count k (pure a : StateM σ α) := fun _ ↦ Nat.le_add_right _ _

theorem bind {x : StateM σ α} {f : α → StateM σ β} (hx : Costs count k x)
    (hf : ∀ a, Costs count l (f a)) : Costs count (k + l) (x >>= f) := by
  intro s
  have hfirst := hx s
  have hrest := hf (x s).1 (x s).2
  rw [bind_apply]
  omega

/-- A sequence that can fail stops with its first part or goes on with the second. -/
theorem run_bind {ε : Type} {x : ExceptT ε (StateM σ) α} {f : α → ExceptT ε (StateM σ) β}
    (hx : Costs count k x.run) (hf : ∀ a, Costs count l (f a).run) :
    Costs count (k + l) (x >>= f).run := by
  intro s
  rw [run_bind_apply]
  have hfirst := hx s
  cases (x.run s).1 with
  | ok a =>
    have hrest := hf a (x.run s).2
    dsimp only
    omega
  | error e =>
    dsimp only
    omega

end Costs

end Action

open ExactPenalty.Action

variable {σ R : Type} [Scalar R] {n : Nat} {solve : QpService σ R} {solves : σ → Nat}

omit [Scalar R] in
/-- A quantity of the state that counts the quadratic programs. -/
def QpService.Counts (solve : QpService σ R) (solves : σ → Nat) : Prop :=
  ∀ {m : Nat} (qp : QuadraticProgram R m) s, solves (solve qp s).2 = solves s + 1

omit [Scalar R] in
theorem QpService.Counts.costs (hsolve : solve.Counts solves) {m : Nat} (qp : QuadraticProgram R m) :
    Costs solves 1 (solve qp) := fun s ↦ Nat.le_of_eq (hsolve qp s)

/-! ## Steering -/

theorem SteeringOutcome.costs_firstAdequate {c : R} {k : Nat}
    {attempt : (shrinks : Nat) → (μ : R) → ExceptT QpError (StateM σ) (SteeringOutcome R n)}
    (hattempt : ∀ shrinks μ, Costs solves k (attempt shrinks μ).run) (left shrinks : Nat) (μ : R)
    (best : Option (SteeringOutcome R n)) :
    Costs solves (left * k) (firstAdequate c attempt left shrinks μ best).run := by
  induction left generalizing shrinks μ best with
  | zero =>
    rw [Nat.zero_mul]
    cases best <;> exact .pure _
  | succ left ih =>
    rw [firstAdequate, Nat.succ_mul, Nat.add_comm]
    refine .run_bind (hattempt _ _) fun next ↦ ?_
    split
    · exact .pure _
    · exact ih _ _ _

section Counted

variable (hsolve : solve.Counts solves)
include hsolve

theorem SteeringModel.costs_direction {m : Nat} (model : SteeringModel R n m) (μ : R) :
    Costs solves 1 (model.direction solve μ).run := by
  rw [direction]
  refine .run_bind (l := 0) (hsolve.costs _) fun y ↦ ?_
  dsimp only
  split
  · exact .pure _
  · exact .pure _

/-- **Steering solves two programs, and one more for each time that it shrinks the weight.** -/
theorem costs_steer (options : SteeringOptions R) (o : Observation R n) (h : Mat R n n) (μ : R) :
    Costs solves (options.maxShrinks + 2) (steer solve options o h μ).run := by
  rw [steer]
  refine (Costs.run_bind (l := options.maxShrinks + 1)
    (SteeringModel.costs_direction hsolve _ _) fun reference ↦ ?_).mono (by omega)
  refine (SteeringOutcome.costs_firstAdequate (k := 1) (fun shrinks ν ↦ ?_) _ _ _ _).mono (by omega)
  exact .run_bind (l := 0) (SteeringModel.costs_direction hsolve _ _) fun d ↦ .pure _

/-! ## Directions -/

namespace DirectionContext

variable (ctx : DirectionContext R n)

theorem costs_steered (options : SteeringOptions R) (h : Mat R n n) (μ : R) :
    Costs solves (options.maxShrinks + 2) (ctx.steered solve options h μ) := by
  rw [steered]
  exact .bind (l := 0) (costs_steer hsolve _ _ _ _) fun _ ↦ .pure _

/-- Programs are solved on the steering rungs only, where steering is engaged. -/
theorem costs_propose (options : SteeringOptions R) (level : Level) (μ : R) (g : Generator) :
    Costs solves (if ctx.engaged && level.usesSteering then options.maxShrinks + 2 else 0)
      (ctx.propose solve options level μ g) := by
  rw [propose.eq_def]
  cases level with
  | steering | steeringIdentity =>
    cases ctx.engaged with
    | true => exact .bind (l := 0) (costs_steered hsolve _ _ _ _) fun _ ↦ .pure _
    | false => exact .pure _
  | quasiNewton | steepestDescent | random => cases ctx.engaged <;> exact .pure _

theorem costs_attempt (options : Options R) (level : Level) (μ : R) (g : Generator) :
    Costs solves (if ctx.engaged && level.usesSteering then options.steering.maxShrinks + 2 else 0)
      (ctx.attempt solve options level μ g) := by
  rw [attempt]
  exact .bind (l := 0) (costs_propose hsolve _ _ _ _ _) fun _ ↦ .pure _

end DirectionContext

/-! ## Stationarity -/

theorem GradientBundle.costs_measure (b : GradientBundle R n) (it : Iterate R n) (h : Mat R n n)
    (radius : Extended R) : Costs solves 1 (b.measure solve it h radius) := by
  rw [measure]
  split
  · exact .pure _
  · refine .bind (l := 0) (hsolve.costs _) fun answer ↦ ?_
    split
    · exact .pure _
    · exact .pure _

end Counted

end ExactPenalty
