import ExactPenalty.Proofs.Attempts
import ExactPenalty.Run

/-!
# Rungs under other names

Where steering is not engaged, a steering rung makes the direction of the rung two above it, its
counterpart.  So a run that does not steer may give its rungs other names without doing anything else,
as long as a rung and its new name have the same counterpart; this is a `Relabelling`.

* `Level.counterpart` — the plain rung in place of a rung that does not steer.
* `Relabelling` — new names for the rungs.  Everything that remembers a rung is `relabelled` by it, from
  directions to the results of runs.
* `DirectionContext.unsteered` — what a rung proposes where it does not steer.  It depends on the
  counterpart only, so an attempt comes to the same under any name
  (`DirectionContext.result_concluded_relabelled`).
-/

set_option autoImplicit false

namespace ExactPenalty

open Scalar Linear ExactPenalty.Action

/-! ## Counterparts -/

namespace Level

/-- The rung that makes the same direction where steering is not engaged, and that never steers. -/
def counterpart : Level → Level
  | steering => quasiNewton
  | steeringIdentity => steepestDescent
  | level => level

variable {level : Level}

theorem index_counterpart (h : level.index ≤ 1) : level.counterpart.index = level.index + 2 := by
  cases level with
  | steering | steeringIdentity => rfl
  | quasiNewton | steepestDescent | random => exact absurd h (by decide)

theorem counterpart_eq_random_iff : level.counterpart = .random ↔ level = .random := by
  cases level <;> decide

end Level

/-- New names for the rungs, that stand for the same directions where nothing is steered. -/
structure Relabelling where
  toFun : Level → Level
  counterpart_eq : ∀ level, (toFun level).counterpart = level.counterpart

namespace Relabelling

instance instCoeFun : CoeFun Relabelling fun _ ↦ Level → Level := ⟨toFun⟩

/-- All rungs keep their names. -/
def none : Relabelling := ⟨id, fun _ ↦ rfl⟩

/-- The rungs are named after their counterparts. -/
def counterparts : Relabelling := ⟨Level.counterpart, fun level ↦ by cases level <;> rfl⟩

variable (ρ : Relabelling)

theorem eq_random_iff {level : Level} : ρ level = .random ↔ level = .random := by
  rw [← Level.counterpart_eq_random_iff, ρ.counterpart_eq, Level.counterpart_eq_random_iff]

end Relabelling

variable {σ R : Type} {n : Nat} (ρ : Relabelling)

/-! ## What remembers a rung -/

def Direction.relabelled (d : Direction R n) : Direction R n := { d with level := ρ d.level }

def DirectionError.relabelled : DirectionError R n → DirectionError R n
  | qp e => qp e
  | nonDescent d => nonDescent (d.relabelled ρ)
  | degenerate => degenerate

/-- What an attempt comes to, under another name. -/
def DirectionAttempt.resultRelabelled :
    Except (DirectionError R n) (Direction R n) → Except (DirectionError R n) (Direction R n)
  | .ok d => .ok (d.relabelled ρ)
  | .error e => .error (e.relabelled ρ)

def Climb.relabelled (c : Climb R n) : Climb R n :=
  { c with lastDirection := c.lastDirection.map (·.relabelled ρ) }

def Move.relabelled (move : Move R n) : Move R n :=
  { move with direction := move.direction.relabelled ρ }

def ClimbEnd.relabelled : ClimbEnd R n → ClimbEnd R n
  | moved move => moved (move.relabelled ρ)
  | failed failure => failed failure
  | stopped reason => stopped reason

def StepRecord.relabelled (r : StepRecord R) : StepRecord R := { r with level := ρ r.level }

def IterationRecord.relabelled (r : IterationRecord R n) : IterationRecord R n :=
  { r with step := r.step.map (·.relabelled ρ) }

def Progress.relabelled (p : Progress R n) : Progress R n :=
  { p with history := p.history.map (·.relabelled ρ), step := p.step.map (·.relabelled ρ) }

def RunResult.relabelled (r : RunResult R n) : RunResult R n :=
  { r with history := r.history.map (·.relabelled ρ) }

/-- A result stays as it is if the rungs keep their names. -/
theorem RunResult.relabelled_none (r : RunResult R n) : r.relabelled .none = r := by
  have hstep (step : Option (StepRecord R)) : step.map (·.relabelled .none) = step := by
    cases step <;> rfl
  have hrecord (record : IterationRecord R n) : record.relabelled .none = record :=
    congrArg (fun step ↦ { record with step }) (hstep record.step)
  have hhistory : r.history.map (·.relabelled .none) = r.history := by
    rw [funext hrecord, Array.map_id']
  rw [relabelled, hhistory]

theorem RunResult.map_relabelled_none {ε : Type} (x : Except ε (RunResult R n)) :
    x.map (RunResult.relabelled .none) = x := by
  cases x with
  | error e => rfl
  | ok r => exact congrArg Except.ok r.relabelled_none

/-- Records are relabelled one by one, and their iterates stay. -/
theorem Progress.back?_history_relabelled (p : Progress R n) :
    (p.relabelled ρ).history.back?.map (·.iterate) = p.history.back?.map (·.iterate) := by
  show (p.history.map (·.relabelled ρ)).back?.map (·.iterate) = _
  rw [Array.back?_map, Option.map_map]
  rfl

/-- At the start there is no step to relabel. -/
theorem Progress.start_relabelled [Scalar R] (o : Options R) (first : Observation R n) :
    (start o first).relabelled ρ = start o first := by
  rw [start, relabelled, Array.map_empty]
  rfl

/-! ## Directions -/

namespace DirectionContext

variable [Scalar R] {ctx : DirectionContext R n} {solve : QpService σ R} {level : Level}

/-- What a rung proposes where it does not steer, and the generator after it. -/
def unsteered (ctx : DirectionContext R n) (level : Level) (μ : R) (g : Generator) :
    Proposal R n × Generator :=
  let gradient := ctx.observation.penaltyGradAt μ
  let plain (v : Vector R n) : Proposal R n := { vector := v, mu := μ, steered := none }
  match level.counterpart with
  | .steepestDescent => (plain (-gradient), g)
  | .random =>
    let (v, g) := g.components n
    (plain v, g)
  | _ => (plain (-(ctx.curvature.mulVec gradient)), g)

/-- A rung that does not steer asks for nothing. -/
theorem propose_eq_unsteered (hsteers : (ctx.engaged && level.usesSteering) = false)
    (options : SteeringOptions R) (μ : R) (g : Generator) :
    ctx.propose solve options level μ g
      = pure (.ok (ctx.unsteered level μ g).1, (ctx.unsteered level μ g).2) := by
  rw [propose.eq_def]
  cases level with
  | steering | steeringIdentity =>
    have hengaged : ctx.engaged = false := by simpa [Level.usesSteering] using hsteers
    rw [hengaged]
    rfl
  | quasiNewton | steepestDescent | random => rfl

theorem unsteered_relabelled (ctx : DirectionContext R n) (level : Level) (μ : R) (g : Generator) :
    ctx.unsteered (ρ level) μ g = ctx.unsteered level μ g := by
  rw [unsteered, unsteered, ρ.counterpart_eq]

theorem attempt_eq_unsteered (hsteers : (ctx.engaged && level.usesSteering) = false)
    (options : Options R) (μ : R) (g : Generator) :
    ctx.attempt solve options level μ g
      = pure (ctx.concluded options level (.ok (ctx.unsteered level μ g).1),
          (ctx.unsteered level μ g).2) := by
  rw [attempt, propose_eq_unsteered hsteers]
  rfl

/-- **A proposal is judged alike under every name of its rung.** -/
theorem judge_relabelled (ctx : DirectionContext R n) (lenient : Bool) (level : Level)
    (p : Proposal R n) : ctx.judge lenient (ρ level) p
      = DirectionAttempt.resultRelabelled ρ (ctx.judge lenient level p) := by
  rw [judge, judge]
  simp only [ρ.eq_random_iff]
  by_cases hdegenerate : allFinite p.vector = false ∨
      (p.vector.all fun v ↦ decide (Same v 0)) = true
  · rw [if_pos hdegenerate, if_pos hdegenerate]
    rfl
  · rw [if_neg hdegenerate, if_neg hdegenerate, apply_ite (DirectionAttempt.resultRelabelled ρ)]
    rfl

theorem result_concluded_relabelled (ctx : DirectionContext R n) (options : Options R)
    (level : Level) (p : Proposal R n) : (ctx.concluded options (ρ level) (.ok p)).result
      = DirectionAttempt.resultRelabelled ρ (ctx.concluded options level (.ok p)).result :=
  ctx.judge_relabelled ρ _ level p

end DirectionContext

end ExactPenalty
