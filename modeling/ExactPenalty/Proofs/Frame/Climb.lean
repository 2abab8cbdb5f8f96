import Mathlib
import ExactPenalty.Proofs.Frame.Direction
import ExactPenalty.Proofs.Frame.Search
import ExactPenalty.Proofs.Options
import ExactPenalty.Proofs.Run.Climb
import ExactPenalty.Proofs.Run.Session

/-!
# Iterations in another frame

A problem posed in another frame is one that answers there (`Environment.inFrame`).  The solver of
quadratic programs, the eigenvalue method and the clock are the same, and of the options only the
initial penalty parameter and the objective target have a unit.

Every part of an iteration does in the new frame what it does in the old one, from sessions that agree
in all but their transcripts (`Session.SameState`): look-ups, directions, searches, the rounds of a
climb, and a forced step.  So does the iteration (`IterationContext.mirrors_run`), provided that the
coordinates stay or the random rung is not permitted.
-/

set_option autoImplicit false

namespace ExactPenalty

open Linear Session ExactPenalty.Action

variable {σ : Type} {n : Nat} (F : Frame n)

/-! ## What a run is given -/

/-- The problem as it is posed in the new frame. -/
noncomputable def Environment.inFrame (env : Environment σ ℝ n) : Environment σ ℝ n :=
  { env with evaluate := fun z ↦ Evaluation.inFrame F <$> env.evaluate (F.origin z) }

noncomputable def StoppingOptions.inFrame (o : StoppingOptions ℝ) : StoppingOptions ℝ :=
  { o with target := o.target.scaled F.unit }

noncomputable def Options.inFrame (o : Options ℝ) : Options ℝ :=
  { o with mu0 := o.mu0 / F.unit, stopping := o.stopping.inFrame F }

theorem Options.IsValid.inFrame {o : Options ℝ} (h : o.IsValid) : (o.inFrame F).IsValid :=
  { h with
    mu0_isFinite := rfl
    mu0_pos := div_pos h.mu0_pos F.unit_pos
    target_not_nan := by
      show (o.stopping.target.scaled F.unit).isNaN = false
      cases o.stopping.target <;> rfl }

noncomputable def RunContext.inFrame (run : RunContext σ ℝ n) : RunContext σ ℝ n where
  env := run.env.inFrame F
  options := run.options.inFrame F
  shape := run.shape

/-! ## Sessions -/

/-- The sessions agree in all but their transcripts. -/
structure Session.SameState (s t : Session σ ℝ n) : Prop where
  world : t.world = s.world
  evaluations : t.evaluations = s.evaluations
  generator : t.generator = s.generator

section Sessions

variable {α β : Type} {f : α → β}

theorem mirrors_note (e e' : Event ℝ n) :
    Mirrors (SameState (σ := σ)) id (note e) (note e') :=
  fun _ _ h ↦ ⟨rfl, h.world, h.evaluations, h.generator⟩

theorem mirrors_outside {x : StateM σ α} {y : StateM σ β} (hxy : y = f <$> x) :
    Mirrors (SameState (n := n)) f (outside x) (outside y) := by
  rintro ⟨world, evaluations, generator, _⟩ ⟨_, _, _, _⟩ ⟨rfl, rfl, rfl⟩
  subst hxy
  exact ⟨rfl, rfl, rfl, rfl⟩

theorem mirrors_evaluate (env : Environment σ ℝ n) (x : Vector ℝ n) :
    Mirrors SameState (Evaluation.inFrame F) (evaluate env x)
      (evaluate (env.inFrame F) (F.point x)) := by
  have hanswer : (env.inFrame F).evaluate (F.point x) = Evaluation.inFrame F <$> env.evaluate x :=
    congrArg (fun y ↦ Evaluation.inFrame F <$> env.evaluate y) (F.origin_point x)
  refine (mirrors_outside hanswer).bind fun answer ↦ ?_
  refine .bind (f := id) (fun s t h ↦ ⟨rfl, h.world, ?_, h.generator⟩) fun _ ↦ ?_
  · exact congrArg (· + 1) h.evaluations
  · exact (mirrors_note _ _).bind fun _ ↦ .pure rfl

end Sessions

namespace RunContext

variable (run : RunContext σ ℝ n) {s t : Session σ ℝ n}

theorem exhausted?_inFrame (h : s.SameState t) : (run.inFrame F).exhausted? t = run.exhausted? s := by
  rw [exhausted?, exhausted?, h.world, h.evaluations]
  rfl

theorem stopReason_inFrame (h : s.SameState t) : (run.inFrame F).stopReason t = run.stopReason s := by
  rw [stopReason, stopReason, run.exhausted?_inFrame F h]

theorem shaped?_inFrame (x : Vector ℝ n) (answer : Evaluation ℝ) :
    (run.inFrame F).shaped? (F.point x) (answer.inFrame F)
      = (run.shaped? x answer).map (·.inFrame F) := by
  rw [shaped?, shaped?, answer.toObservation?_inFrame]
  cases answer.toObservation? x with
  | none => rfl
  | some o =>
    rw [Option.map_some, Option.filter_some, Option.filter_some, o.shape_inFrame]
    show (if decide (o.shape = run.shape) = true then _ else _) = _
    split_ifs <;> rfl

/-- **Look-ups answer alike in every frame.** -/
theorem mirrors_lookUp (x : Vector ℝ n) :
    Mirrors SameState (Lookup.inFrame F) (run.lookUp x) ((run.inFrame F).lookUp (F.point x)) := by
  intro s t h
  rw [lookUp, lookUp, bind_apply, bind_apply, get_apply, get_apply]
  dsimp only
  rw [run.exhausted?_inFrame F h]
  split_ifs
  · exact ⟨rfl, h⟩
  · refine (mirrors_evaluate F run.env x).bind (fun answer ↦ ?_) s t h
    rw [run.shaped?_inFrame]
    cases run.shaped? x answer with
    | none => exact (mirrors_note _ _).bind fun _ ↦ .pure rfl
    | some o =>
      refine .pure ?_
      rw [o.isFinite_inFrame]
      split_ifs <;> rfl

end RunContext

/-! ## Climbs -/

noncomputable def Climb.inFrame (c : Climb ℝ n) : Climb ℝ n :=
  { c with
    mu := c.mu / F.unit
    lastDirection := c.lastDirection.map (·.inFrame F)
    lastTrial := c.lastTrial.map (·.inFrame F) }

noncomputable def Move.inFrame (move : Move ℝ n) : Move ℝ n :=
  { move with target := move.target.inFrame F, direction := move.direction.inFrame F }

noncomputable def ClimbEnd.inFrame : ClimbEnd ℝ n → ClimbEnd ℝ n
  | moved move => moved (move.inFrame F)
  | failed failure => failed failure
  | stopped reason => stopped reason

namespace Climb

variable (c : Climb ℝ n)

theorem searched_inFrame (d : Direction ℝ n) (e : SearchError ℝ n) :
    (c.inFrame F).searched (d.inFrame F) (e.inFrame F) = (c.searched d e).inFrame F := rfl

theorem reattempted_inFrame (factor : ℝ) :
    (c.inFrame F).reattempted factor = (c.reattempted factor).inFrame F :=
  congrArg (fun mu ↦ { (c.reattempted factor).inFrame F with mu }) (div_mul_eq_mul_div _ _ _)

end Climb

namespace IterationContext

variable (it : IterationContext σ ℝ n)

noncomputable def inFrame : IterationContext σ ℝ n where
  toRunContext := it.toRunContext.inFrame F
  toDirectionContext := it.toDirectionContext.inFrame F
  reattempts := it.reattempts

theorem mirrors_makeDirection {level : Level} (hlevel : level = .random → F.rotation = 1) (μ : ℝ) :
    Mirrors SameState (DirectionAttempt.resultInFrame F) (it.makeDirection level μ)
      ((it.inFrame F).makeDirection level (μ / F.unit)) := by
  refine .get_bind fun s t h ↦ ?_
  have hattempt := it.toDirectionContext.attempt_inFrame F it.env.solve it.options hlevel μ s.generator
  rw [h.generator]
  refine (mirrors_outside hattempt).bind (fun answer ↦ ?_) s t h
  refine .bind (f := id) (fun s t h ↦ ⟨rfl, h.world, h.evaluations, rfl⟩) fun _ ↦ ?_
  exact (mirrors_note _ _).bind fun _ ↦ .pure rfl

theorem mirrors_searchAlong (c : Climb ℝ n) (d : Direction ℝ n) :
    Mirrors SameState (Prod.map (SearchResult.inFrame F) (Climb.inFrame F)) (it.searchAlong c d)
      ((it.inFrame F).searchAlong (c.inFrame F) (d.inFrame F)) := by
  have hlowers : decide ((d.inFrame F).mu < (c.inFrame F).mu) = decide (d.mu < c.mu) :=
    decide_eq_decide.2 (div_lt_div_iff_of_pos_right F.unit_pos)
  have hsearch (c : Climb ℝ n) : Mirrors SameState
      (Prod.map (SearchResult.inFrame F) (Climb.inFrame F))
      (do
        let result ← lineSearch it.lookUp (it.task c d) it.options.search
        note (.searched (it.task c d) result)
        return (result, c))
      (do
        let result ← lineSearch (it.inFrame F).lookUp ((it.task c d).inFrame F) it.options.search
        note (.searched ((it.task c d).inFrame F) result)
        return (result, c.inFrame F)) :=
    (mirrors_lineSearch F (it.mirrors_lookUp F) (it.task c d) it.options.search).bind fun result ↦
      (mirrors_note _ _).bind fun _ ↦ .pure rfl
  rw [searchAlong, searchAlong]
  dsimp only
  rw [hlowers]
  split_ifs
  · exact (mirrors_note _ _).bind fun _ ↦ hsearch { c with mu := d.mu }
  · exact hsearch c

/-- **An attempt at a rung does the same in every frame.** -/
theorem mirrors_tryOnce {level : Level} (hlevel : level = .random → F.rotation = 1) (left : Nat)
    (c : Climb ℝ n) :
    Mirrors SameState (Prod.map (Option.map (ClimbEnd.inFrame F)) (Climb.inFrame F))
      (it.tryOnce level left c) ((it.inFrame F).tryOnce level left (c.inFrame F)) := by
  rw [tryOnce, tryOnce]
  refine (it.mirrors_makeDirection F hlevel c.mu).bind fun attempt ↦ ?_
  rcases attempt with (e | d | _) | d
  · exact .pure rfl
  · exact .pure rfl
  · exact .pure rfl
  refine (it.mirrors_searchAlong F c d).bind fun answer ↦ ?_
  rcases answer with ⟨e | out, c'⟩
  · have hreason : (e.inFrame F).reason = e.reason := rfl
    dsimp only [Prod.map, SearchResult.inFrame]
    rw [hreason]
    cases e.reason with
    | notBracketed t =>
      have hconstrained : (it.inFrame F).observation.isConstrained = it.observation.isConstrained :=
        it.observation.isConstrained_inFrame F
      dsimp only
      rw [hconstrained]
      split_ifs
      · exact (mirrors_note _ _).bind fun _ ↦ .pure (by
          rw [Climb.searched_inFrame, inFrame, Climb.reattempted_inFrame]
          rfl)
      · exact .pure rfl
    | wolfeNotSatisfied l u => exact .pure rfl
    | armijoNotSatisfied => exact .pure rfl
    | nonDescent => exact .pure rfl
    | budgetExhausted =>
      refine .get_bind fun s t h ↦ ⟨?_, h⟩
      exact congrArg (fun reason ↦ (some (ClimbEnd.stopped reason), (c'.searched d e).inFrame F))
        (it.stopReason_inFrame F h)
  · exact .pure rfl

/-! ## Rounds -/

/-- Two climbs are about to make the same attempt, each in its frame. -/
structure SameStage (max : Nat) (a b : ClimbStage σ ℝ n) : Prop where
  ladder : b.ladder = a.ladder
  within : a.ladder.IsWithin max
  left : b.left = a.left
  climb : b.climb = a.climb.inFrame F
  session : a.session.SameState b.session

variable {it}

/-- Rounds of two climbs are the same, if the coordinates stay or the random rung is not reached. -/
theorem together_climbRound_inFrame (hframe : F.rotation = 1 ∨ it.options.ladder.max ≤ 3)
    (a b : ClimbStage σ ℝ n) (hab : SameStage F it.options.ladder.max a b) :
    Together (SameStage F it.options.ladder.max)
      (Mirrored SameState (Prod.map (ClimbEnd.inFrame F) (Climb.inFrame F))) (it.climbRound a)
      ((it.inFrame F).climbRound b) := by
  have hlevel : a.ladder.level = .random → F.rotation = 1 := fun hrandom ↦
    hframe.resolve_right fun hmax ↦ hab.within.ne_random (by omega) hrandom
  have hmirror := it.mirrors_tryOnce F hlevel a.left a.climb a.session b.session hab.session
  rw [climbRound, climbRound, hab.ladder, hab.left, hab.climb]
  rcases ha : it.tryOnce a.ladder.level a.left a.climb a.session with ⟨⟨e, c⟩, s⟩
  rcases hb : (it.inFrame F).tryOnce a.ladder.level a.left (a.climb.inFrame F) b.session with
    ⟨⟨e', c'⟩, t⟩
  rw [ha, hb] at hmirror
  obtain ⟨hanswer, hstate⟩ := hmirror
  cases hanswer
  rcases e with _ | move | failure | reason
  · exact .next ⟨rfl, hab.within, rfl, rfl, hstate⟩
  · exact .done ⟨rfl, hstate⟩
  · have hnoted : (note (.failed a.ladder a.ladder.next) s).2.SameState
        (note (.failed a.ladder a.ladder.next) t).2 := (mirrors_note _ _ s t hstate).2
    dsimp only [Prod.map, Option.map, ClimbEnd.inFrame]
    split_ifs with hnext
    · exact .done ⟨rfl, hnoted⟩
    · exact .next ⟨rfl, hab.within.climb hnext, rfl, rfl, hnoted⟩
  · exact .done ⟨rfl, hstate⟩

theorem mirrors_climbFrom (hframe : F.rotation = 1 ∨ it.options.ladder.max ≤ 3) {ladder : Ladder}
    (hladder : ladder.IsWithin it.options.ladder.max) (c : Climb ℝ n) :
    Mirrors SameState (Prod.map (ClimbEnd.inFrame F) (Climb.inFrame F)) (it.climbFrom ladder c)
      ((it.inFrame F).climbFrom ladder (c.inFrame F)) := fun s t h ↦
  Ends.together (together_climbRound_inFrame F hframe) (it.ends_climbFrom ladder c s)
    ((it.inFrame F).ends_climbFrom ladder (c.inFrame F) t) ⟨rfl, hladder, rfl, rfl, h⟩

/-! ## Iterations -/

variable (it)

theorem mirrors_force (c : Climb ℝ n) (reason : Termination) :
    Mirrors SameState (Except.map (Move.inFrame F)) (it.force c reason)
      ((it.inFrame F).force (c.inFrame F) reason) := by
  rw [force, force, Climb.inFrame]
  cases c.lastDirection with
  | none => exact (mirrors_note _ _).bind fun _ ↦ .pure rfl
  | some d =>
    dsimp only [Option.map]
    cases c.lastTrial with
    | some trial => exact (mirrors_note _ _).bind fun _ ↦ .pure rfl
    | none =>
      have hpoint (step : ℝ) : along (it.inFrame F).observation.point (d.inFrame F).vector step
          = F.point (along it.observation.point d.vector step) := F.along_point _ _ _
      dsimp only
      rw [hpoint]
      refine (it.mirrors_lookUp F _).bind fun answer ↦ ?_
      cases answer with
      | evaluated o => exact (mirrors_note _ _).bind fun _ ↦ .pure rfl
      | rejected => exact .pure rfl
      | stopped => exact .get_bind fun s t h ↦ ⟨congrArg Except.error (it.stopReason_inFrame F h), h⟩

/-- **Iterations make the same step in every frame.** -/
theorem mirrors_run (hframe : F.rotation = 1 ∨ it.options.ladder.max ≤ 3)
    (hoptions : it.options.IsValid) (μ : ℝ) :
    Mirrors SameState (Prod.map (Except.map (Move.inFrame F)) (· / F.unit)) (it.run μ)
      ((it.inFrame F).run (μ / F.unit)) := by
  have hladder : (Ladder.start it.options.ladder it.engaged).IsWithin it.options.ladder.max :=
    Ladder.isWithin_start hoptions.ladderMin_le_max hoptions.ladderMax_le it.engaged
  have hfeasible (ineqTol eqTol : Extended ℝ) : (it.inFrame F).observation.isFeasible ineqTol eqTol
      = it.observation.isFeasible ineqTol eqTol := it.observation.isFeasible_inFrame F ineqTol eqTol
  rw [run, run]
  refine (mirrors_climbFrom F hframe hladder (.start μ)).bind fun answer ↦ ?_
  rcases answer with ⟨move | failure | reason, c⟩
  · exact .pure rfl
  · have hforces : (it.inFrame F).options.forceMovement = it.options.forceMovement := rfl
    dsimp only [Prod.map, ClimbEnd.inFrame]
    rw [hfeasible, hforces]
    split_ifs
    · exact (it.mirrors_force F c _).bind fun answer ↦ .pure rfl
    · exact .pure rfl
  · exact .pure rfl

end IterationContext

end ExactPenalty
