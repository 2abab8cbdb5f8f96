import ExactPenalty.Direction
import ExactPenalty.Proofs.Action
import ExactPenalty.Stationarity

/-!
# What the parts of the method do to the world

Making a direction and measuring stationarity touch the world only by asking for the solution of
quadratic programs.  So what every such question does to the world, they do.
-/

set_option autoImplicit false

namespace ExactPenalty

open ExactPenalty.Action

variable {σ R : Type} [Scalar R] {n : Nat} {solve : QpService σ R} {rel : σ → σ → Prop}
    [IsPreorder σ rel] (hsolve : ∀ {m : Nat} (qp : QuadraticProgram R m), Leads rel (solve qp))

/-! ## Steering -/

theorem SteeringOutcome.leads_firstAdequate {c : R}
    {attempt : (shrinks : Nat) → (μ : R) → ExceptT QpError (StateM σ) (SteeringOutcome R n)}
    (hattempt : ∀ k μ, Leads rel (attempt k μ).run) (left shrinks : Nat) (μ : R)
    (best : Option (SteeringOutcome R n)) :
    Leads rel (firstAdequate c attempt left shrinks μ best).run := by
  induction left generalizing shrinks μ best with
  | zero => cases best <;> exact .pure _
  | succ left ih =>
    rw [firstAdequate]
    refine .run_bind (hattempt _ _) fun next ↦ ?_
    split
    · exact .pure _
    · exact ih _ _ _

include hsolve

theorem SteeringModel.leads_direction {m : Nat} (model : SteeringModel R n m) (μ : R) :
    Leads rel (model.direction solve μ).run := by
  rw [direction]
  refine .run_bind (hsolve _) fun y ↦ ?_
  dsimp only
  split
  · exact .pure _
  · exact .pure _

theorem leads_steer (options : SteeringOptions R) (o : Observation R n) (h : Mat R n n) (μ : R) :
    Leads rel (steer solve options o h μ).run := by
  rw [steer]
  refine .run_bind (SteeringModel.leads_direction hsolve _ _) fun reference ↦ ?_
  refine SteeringOutcome.leads_firstAdequate (fun k ν ↦ ?_) _ _ _ _
  exact .run_bind (SteeringModel.leads_direction hsolve _ _) fun d ↦ .pure _

/-! ## Directions -/

namespace DirectionContext

theorem leads_steered (ctx : DirectionContext R n) (options : SteeringOptions R) (h : Mat R n n)
    (μ : R) : Leads rel (ctx.steered solve options h μ) := by
  rw [steered]
  exact .bind (leads_steer hsolve _ _ _ _) fun _ ↦ .pure _

theorem leads_propose (ctx : DirectionContext R n) (options : SteeringOptions R) (level : Level)
    (μ : R) (g : Generator) : Leads rel (ctx.propose solve options level μ g) := by
  rw [propose.eq_def]
  split
  · exact .bind (leads_steered hsolve _ _ _ _) fun _ ↦ .pure _
  · exact .bind (leads_steered hsolve _ _ _ _) fun _ ↦ .pure _
  · exact .pure _
  · exact .pure _
  · exact .pure _
  · exact .pure _
  · exact .pure _

theorem leads_attempt (ctx : DirectionContext R n) (options : Options R) (level : Level) (μ : R)
    (g : Generator) : Leads rel (ctx.attempt solve options level μ g) := by
  rw [attempt]
  exact .bind (leads_propose hsolve _ _ _ _ _) fun _ ↦ .pure _

end DirectionContext

/-! ## Stationarity -/

theorem GradientBundle.leads_measure (b : GradientBundle R n) (it : Iterate R n) (h : Mat R n n)
    (radius : Extended R) : Leads rel (b.measure solve it h radius) := by
  rw [measure]
  split
  · exact .pure _
  · refine .bind (hsolve _) fun answer ↦ ?_
    split
    · exact .pure _
    · exact .pure _

end ExactPenalty
