import Mathlib
import ExactPenalty.Proofs.Run.LastRung
import ExactPenalty.Proofs.Run.Segments
import ExactPenalty.Proofs.Run.Stationary

/-!
# How many random directions an iteration tries

The ladder counts how often the random rung has failed, and stops at its limit.  But a rung fails only
after its reattempts, and each of them makes the direction of the rung anew, with the next random
numbers.  So an iteration may try more random directions than the limit: one more for every reattempt on
the random rung.

`IterationContext.Drawn` compares the draws with what the ladder has counted, at every stage of a climb.
`random_directions_are_limited` is what it comes to in a whole run.  A run down a ramp tries two random
directions where one is allowed (`exists_minimize_ramp`).
-/

set_option autoImplicit false

namespace ExactPenalty

open Session Linear Matrix ExactPenalty.Action

variable {σ R : Type} {n : Nat}

/-! ## Draws -/

namespace Event

/-- A direction was made on the random rung. -/
def isDraw : Event R n → Bool
  | attempted attempt => decide (attempt.level = .random)
  | _ => false

/-- The random rung is tried again with a smaller penalty parameter. -/
def isRedraw : Event R n → Bool
  | reattempted level _ _ _ => decide (level = .random)
  | _ => false

/-- The event has to do with no random direction. -/
def IsDrawless (e : Event R n) : Prop := e.isDraw = false ∧ e.isRedraw = false

theorem IsTrial.isDrawless {e : Event R n} (he : e.IsTrial) : e.IsDrawless := by
  cases e <;> first | exact ⟨rfl, rfl⟩ | exact he.elim

theorem IsClosing.isDrawless {e : Event R n} (he : e.IsClosing) : e.IsDrawless := by
  cases e <;> first | exact ⟨rfl, rfl⟩ | exact he.elim

end Event

/-- Among some events there are so many draws, and so many reattempts on the random rung. -/
def HasDraws (draws redraws : Nat) (events : List (Event R n)) : Prop :=
  events.countP (·.isDraw) = draws ∧ events.countP (·.isRedraw) = redraws

variable {events more : List (Event R n)} {draws draws' redraws redraws' : Nat}

theorem HasDraws.append (h : HasDraws draws redraws events) (hmore : HasDraws draws' redraws' more) :
    HasDraws (draws + draws') (redraws + redraws') (events ++ more) := by
  rw [HasDraws, List.countP_append, List.countP_append, h.1, h.2, hmore.1, hmore.2]
  exact ⟨rfl, rfl⟩

theorem hasDraws_of_isDrawless (h : ∀ e ∈ events, e.IsDrawless) : HasDraws 0 0 events :=
  ⟨List.countP_eq_zero.2 fun e he ↦ by simp [(h e he).1],
    List.countP_eq_zero.2 fun e he ↦ by simp [(h e he).2]⟩

/-! ## One attempt -/

variable [Scalar R]

namespace IterationContext

variable {it : IterationContext σ R n} {level : Level} {left : Nat} {c c' : Climb R n} {μ : R}
    {s s' s₀ : Session σ R n} {a b : ClimbStage σ R n}

theorem hasDraws_of_makeDirection {result : Except (DirectionError R n) (Direction R n)}
    (h : it.makeDirection level μ s = (result, s')) :
    ∃ events, s'.transcript.toList = s.transcript.toList ++ events ∧
      HasDraws (if level = .random then 1 else 0) 0 events := by
  obtain ⟨attempt, hattempt, -, hevents⟩ := exists_attempt_of_makeDirection h
  have hlevel : attempt.level = level := by rw [← hattempt, DirectionContext.level_attempt]
  refine ⟨_, hevents, ?_, rfl⟩
  rw [List.countP_singleton, Event.isDraw, hlevel]
  simp

/-- An attempt on the random rung draws once, and on any other rung not at all. -/
theorem Attempted.exists_draws {e : Option (ClimbEnd R n)}
    (h : it.Attempted level left c s e c' s') :
    ∃ events, s'.transcript.toList = s.transcript.toList ++ events ∧
      HasDraws (if level = .random then 1 else 0)
        (if level = .random ∧ e = none then 1 else 0) events := by
  have hsearched {d : Direction R n} {result : SearchResult R n} {c₁ : Climb R n}
      {s₁ s₂ : Session σ R n} (hd : it.makeDirection level c.mu s = (.ok d, s₁))
      (hs : it.searchAlong c d s₁ = ((result, c₁), s₂)) :
      ∃ events, s₂.transcript.toList = s.transcript.toList ++ events ∧
        HasDraws (if level = .random then 1 else 0) 0 events := by
    obtain ⟨made, hmade, hdrawn⟩ := hasDraws_of_makeDirection hd
    obtain ⟨_, lookups, hlookups, htrials, -⟩ := exists_trials_of_searchAlong hs
    have hquiet : HasDraws 0 0 (lookups ++ [.searched (it.task c₁ d) result]) :=
      hasDraws_of_isDrawless <| List.forall_mem_append.2
        ⟨fun e he ↦ Event.IsTrial.isDrawless (htrials.isTrial e he),
          List.forall_mem_singleton.2 ⟨rfl, rfl⟩⟩
    exact ⟨_, by rw [hlookups, hmade, List.append_assoc, List.append_assoc], hdrawn.append hquiet⟩
  cases h with
  | qp hd | nonDescent hd | degenerate hd => simpa using hasDraws_of_makeDirection hd
  | moved hd hs | stopped hd hs | ascending hd hs | unacceptable hd hs | unbounded hd hs =>
    simpa using hsearched hd hs
  | @again d s₁ e c₁ s₂ t hd hs =>
    obtain ⟨events, hevents, hdrawn⟩ := hsearched hd hs
    have hnoted : HasDraws 0 (if level = .random then 1 else 0)
        [(.reattempted level (it.reattempts.limit - (left - 1)) it.reattempts.limit
          ((c₁.searched d e).mu * it.reattempts.factor) : Event R n)] := by
      refine ⟨rfl, ?_⟩
      rw [List.countP_singleton, Event.isRedraw]
      simp
    refine ⟨_, (toList_note _ _).trans (by rw [hevents, List.append_assoc]), ?_⟩
    simpa using hdrawn.append hnoted

/-- A rung is tried again only by the weak Wolfe search, where there are constraints. -/
theorem Attempted.isConstrained_of_none (h : it.Attempted level left c s none c' s') :
    it.observation.isConstrained = true ∧ it.options.search.backtracking = false := by
  cases h with
  | again hd hs hreason hconstrained _ =>
    obtain ⟨-, _, _, hsearch, -⟩ := searchAlong_eq hs
    exact ⟨hconstrained, not_backtracking_of_notBracketed hsearch hreason⟩

/-! ## Stages of a climb -/

/-- What is known of the draws and reattempts on the random rung before an attempt.  Below that rung
there were none.  On it, every try that the ladder has counted was a draw, but for the one that is to
come, and so was every reattempt; and each try has had its reattempts, but for those that are left. -/
structure Drawn (it : IterationContext σ R n) (a : ClimbStage σ R n) (draws redraws : Nat) : Prop where
  limit_eq : a.ladder.maxRandomAttempts = it.options.ladder.maxRandomAttempts
  below : a.ladder.level ≠ .random → draws = 0 ∧ redraws = 0
  attempts_le : a.ladder.level = .random → a.ladder.attempts ≤ it.options.ladder.maxRandomAttempts
  draws_eq : a.ladder.level = .random → draws + 1 = a.ladder.attempts + redraws
  redraws_le : a.ladder.level = .random →
    redraws + a.left ≤ a.ladder.attempts * it.reattempts.limit
  constrained : redraws ≠ 0 →
    it.observation.isConstrained = true ∧ it.options.search.backtracking = false

/-- The draws since a session are known at a stage. -/
def TracesDraws (it : IterationContext σ R n) (s₀ : Session σ R n) (a : ClimbStage σ R n) : Prop :=
  ∃ events draws redraws, a.session.transcript.toList = s₀.transcript.toList ++ events ∧
    HasDraws draws redraws events ∧ it.Drawn a draws redraws

omit [Scalar R] in
theorem tracesDraws_start (hlimit : it.options.ladder.maxRandomAttempts ≠ 0) :
    it.TracesDraws s ⟨.start it.options.ladder it.engaged, it.reattempts.limit, c, s⟩ := by
  have hone (hlevel : (Ladder.start it.options.ladder it.engaged).level = .random) :
      (Ladder.start it.options.ladder it.engaged).attempts = 1 := if_pos hlevel
  refine ⟨[], 0, 0, (List.append_nil _).symm, ⟨rfl, rfl⟩, rfl, fun _ ↦ ⟨rfl, rfl⟩, fun hlevel ↦ ?_,
    fun hlevel ↦ ?_, fun hlevel ↦ ?_, fun h ↦ absurd rfl h⟩ <;> simp only [hone hlevel] <;> omega

/-- A round adds the draws of its attempt. -/
theorem Drawn.climbRound (hlimit : it.options.ladder.maxRandomAttempts ≠ 0)
    (ha : it.Drawn a draws redraws) (h : it.climbRound a = .inl b) :
    ∃ events, b.session.transcript.toList = a.session.transcript.toList ++ events ∧
      ∃ draws' redraws', HasDraws draws' redraws' events ∧
        it.Drawn b (draws + draws') (redraws + redraws') := by
  have hround := it.round_climbRound a
  rw [h] at hround
  cases hround with
  | @again c' s' hattempt =>
    obtain ⟨events, hevents, hdrawn⟩ := hattempt.exists_draws
    have hleft : a.left ≠ 0 := by cases hattempt; assumption
    have hconstrained := hattempt.isConstrained_of_none
    refine ⟨events, hevents, _, _, hdrawn, ha.limit_eq, fun (hlevel : a.ladder.level ≠ .random) ↦ ?_,
      ha.attempts_le, fun (hlevel : a.ladder.level = .random) ↦ ?_,
      fun (hlevel : a.ladder.level = .random) ↦ ?_, fun _ ↦ hconstrained⟩
    · simpa [hlevel] using ha.below hlevel
    · have := ha.draws_eq hlevel
      simp only [hlevel, and_self, if_true]
      omega
    · have := ha.redraws_le hlevel
      simp only [hlevel, and_self, if_true]
      omega
  | @escalated f c' s' hattempt hnext =>
    obtain ⟨events, hevents, hdrawn⟩ := hattempt.exists_draws
    have hfailed : HasDraws (R := R) (n := n) 0 0 [.failed a.ladder a.ladder.next] := ⟨rfl, rfl⟩
    refine ⟨events ++ [.failed a.ladder a.ladder.next], ?_, _, _, hdrawn.append hfailed, ?_⟩
    · rw [toList_note, hevents, List.append_assoc]
    rcases Ladder.climb_cases hnext with ⟨hlevel, hlt, hclimb⟩ | ⟨hlevel, level, hclimb⟩
    · have hdraws := ha.draws_eq hlevel
      have hredraws := ha.redraws_le hlevel
      rw [ha.limit_eq] at hlt
      simp only [hclimb, hlevel, reduceCtorEq, and_false, if_true, if_false]
      refine ⟨ha.limit_eq, fun h ↦ absurd rfl h, fun _ ↦ hlt, fun _ ↦ ?_, fun _ ↦ ?_,
        ha.constrained⟩
      · dsimp only
        omega
      · dsimp only
        rw [Nat.succ_mul]
        omega
    · obtain ⟨rfl, rfl⟩ := ha.below hlevel
      simp only [hclimb, hlevel, false_and, if_false]
      refine ⟨ha.limit_eq, fun _ ↦ ⟨rfl, rfl⟩, fun (h : level = .random) ↦ ?_,
        fun (h : level = .random) ↦ ?_, fun (h : level = .random) ↦ ?_, fun h ↦ absurd rfl h⟩ <;>
        simp only [h, if_true] <;> omega

theorem TracesDraws.climbRound (hlimit : it.options.ladder.maxRandomAttempts ≠ 0)
    (ha : it.TracesDraws s₀ a) (h : it.climbRound a = .inl b) : it.TracesDraws s₀ b := by
  obtain ⟨events, draws, redraws, hevents, hdraws, hdrawn⟩ := ha
  obtain ⟨more, hmore, draws', redraws', hdraws', hdrawn'⟩ := hdrawn.climbRound hlimit h
  exact ⟨events ++ more, _, _, by rw [hmore, hevents, List.append_assoc], hdraws.append hdraws', hdrawn'⟩

/-! ## Climbs -/

/-- Limits to the random directions of an iteration, and to the reattempts among them. -/
structure WithinDraws (it : IterationContext σ R n) (draws redraws : Nat) : Prop where
  draws_le : draws ≤ it.options.ladder.maxRandomAttempts + redraws
  redraws_le : redraws ≤ it.options.ladder.maxRandomAttempts * it.reattempts.limit
  constrained : redraws ≠ 0 →
    it.observation.isConstrained = true ∧ it.options.search.backtracking = false

omit [Scalar R] in
/-- The last attempt of a climb adds a draw if it is made on the random rung. -/
theorem Drawn.within (h : it.Drawn a draws redraws) :
    it.WithinDraws (draws + if a.ladder.level = .random then 1 else 0) redraws := by
  by_cases hlevel : a.ladder.level = .random
  · have hattempts := h.attempts_le hlevel
    have hdraws := h.draws_eq hlevel
    have hredraws := h.redraws_le hlevel
    have hle := Nat.mul_le_mul_right it.reattempts.limit hattempts
    refine ⟨?_, by omega, h.constrained⟩
    rw [if_pos hlevel]
    omega
  · obtain ⟨rfl, rfl⟩ := h.below hlevel
    rw [if_neg hlevel]
    exact ⟨Nat.zero_le _, Nat.zero_le _, h.constrained⟩

theorem exists_draws_climbFrom (hlimit : it.options.ladder.maxRandomAttempts ≠ 0)
    {e : ClimbEnd R n}
    (h : it.climbFrom (.start it.options.ladder it.engaged) (.start μ) s = ((e, c'), s')) :
    ∃ events draws redraws, s'.transcript.toList = s.transcript.toList ++ events ∧
      HasDraws draws redraws events ∧ it.WithinDraws draws redraws := by
  obtain ⟨a, s₁, ⟨events, draws, redraws, hevents, hdraws, hdrawn⟩, hattempt, hend⟩ :=
    exists_last_attempt (P := it.TracesDraws s) (fun _ _ hab ha ↦ ha.climbRound hlimit hab)
      (tracesDraws_start hlimit) h
  obtain ⟨more, hmore, hdraws'⟩ := hattempt.exists_draws
  have hall := hdraws.append hdraws'
  simp only [reduceCtorEq, and_false, if_false, Nat.add_zero] at hall
  rcases hend with ⟨-, -, rfl⟩ | ⟨-, rfl⟩
  · have hfailed : HasDraws (R := R) (n := n) 0 0 [.failed a.ladder a.ladder.next] := ⟨rfl, rfl⟩
    refine ⟨events ++ more ++ [.failed a.ladder a.ladder.next], _, _, ?_, hall.append hfailed,
      hdrawn.within⟩
    rw [toList_note, hmore, hevents]
    simp
  · exact ⟨events ++ more, _, _, by rw [hmore, hevents, List.append_assoc], hall, hdrawn.within⟩

/-- A forced step draws nothing, so the limits of the climb are those of the iteration. -/
theorem exists_draws_run (hlimit : it.options.ladder.maxRandomAttempts ≠ 0)
    {answer : Except Termination (Move R n) × R} (h : it.run μ s = (answer, s')) :
    ∃ events draws redraws, s'.transcript.toList = s.transcript.toList ++ events ∧
      HasDraws draws redraws events ∧ it.WithinDraws draws redraws := by
  have hforce (c : Climb R n) (reason : Termination) :
      Leads (Session.Continues Event.IsDrawless) (it.force c reason) :=
    it.leads_force_of (.note ⟨rfl, rfl⟩) (fun _ _ ↦ .note ⟨rfl, rfl⟩)
      (fun _ ↦ it.continues_lookUp (fun _ ↦ ⟨rfl, rfl⟩) ⟨rfl, rfl⟩) c reason
  obtain ⟨⟨e, c⟩, s₁, hclimb, more, hmore, hdrawless⟩ := exists_climb_of_run hforce h
  obtain ⟨events, draws, redraws, hevents, hdraws, hwithin⟩ := exists_draws_climbFrom hlimit hclimb
  refine ⟨events ++ more, draws, redraws, by rw [hmore, hevents, List.append_assoc], ?_, hwithin⟩
  exact hdraws.append (hasDraws_of_isDrawless hdrawless)

end IterationContext

/-! ## Whole runs -/

variable {env : Environment σ R n} {options : Options R} {x₀ : Vector R n} {world : σ}
    {r : RunResult R n} {s : Session σ R n}

/-- **The random directions of an iteration** are at most as many as the options allow, and one more for
each reattempt on the random rung.  Each of the directions allowed may be followed by as many
reattempts as the options allow, but only in the weak Wolfe search, and where there are constraints. -/
theorem random_directions_are_limited (hrun : minimize env options x₀ world = (.ok r, s)) {k : Nat}
    {record : IterationRecord R n} (hk : r.history[k]? = some record) :
    (s.eventsOf k).countP (·.isDraw)
        ≤ options.ladder.maxRandomAttempts + (s.eventsOf k).countP (·.isRedraw) ∧
      (s.eventsOf k).countP (·.isRedraw) ≤ options.ladder.maxRandomAttempts
        * (if k = 0 then options.firstReattempts else options.reattempts).limit ∧
      (record.iterate.isConstrained = false ∨ options.search.backtracking = true →
        (s.eventsOf k).countP (·.isRedraw) = 0) := by
  obtain ⟨hoptions, -, first, as, -, -, -, hpath⟩ := minimize_eq_ok hrun
  obtain ⟨b, -, rfl, hiteration, hnoted, -, -⟩ := RunContext.noted_eventsOf hpath hk
  dsimp only at hnoted
  subst hiteration
  let run : RunContext σ R n := ⟨env, options, first.shape⟩
  have hclosed {closing : List (Event R n)} (hclosing : ∀ e ∈ closing, e.IsClosing) :
      HasDraws 0 0 closing := hasDraws_of_isDrawless fun e he ↦ (hclosing e he).isDrawless
  obtain ⟨draws, redraws, ⟨hdraws, hredraws⟩, hwithin⟩ :
      ∃ draws redraws, HasDraws draws redraws (s.eventsOf b.progress.iteration) ∧
        (run.climber b).WithinDraws draws redraws := by
    have hclimbed {answer : Except Termination (Move R n) × R} {s₁ : Session σ R n}
        {climb closing : List (Event R n)} (hclosing : ∀ e ∈ closing, e.IsClosing)
        (h : (run.climber b).run b.progress.current.mu (run.entered b) = (answer, s₁))
        (hclimb : s₁.transcript.toList = (run.entered b).transcript.toList ++ climb) :
        ∃ draws redraws, HasDraws draws redraws (climb ++ closing) ∧
          (run.climber b).WithinDraws draws redraws := by
      obtain ⟨events, draws, redraws, hevents, hdraws, hwithin⟩ :=
        IterationContext.exists_draws_run hoptions.maxRandomAttempts_ne_zero h
      obtain rfl := List.append_cancel_left (hclimb.symm.trans hevents)
      exact ⟨draws, redraws, hdraws.append (hclosed hclosing), hwithin⟩
    generalize run.iterateOnce b = next, s.eventsOf b.progress.iteration = events at hnoted ⊢
    cases hnoted with
    | ended _ hclosing =>
      exact ⟨0, 0, hclosed hclosing, Nat.zero_le _, Nat.zero_le _, fun h ↦ absurd rfl h⟩
    | failed hfailed hclimb hclosing => exact hclimbed hclosing hfailed hclimb
    | moved hmoved hclimb hclosing => exact hclimbed hclosing hmoved hclimb
  rw [hdraws, hredraws]
  refine ⟨hwithin.draws_le, hwithin.redraws_le, fun hnot ↦ ?_⟩
  by_contra hne
  obtain ⟨hconstrained, hwolfe⟩ := hwithin.constrained hne
  rcases hnot with hnot | hnot
  · exact absurd (hnot.symm.trans hconstrained) Bool.false_ne_true
  · exact absurd (hwolfe.symm.trans hnot) Bool.false_ne_true

/-! ## A run above the limit -/

/-- On the line, a falling objective and an inequality that is violated by one everywhere: the penalty
function is unbounded below along every direction that descends, whatever its weight. -/
noncomputable def ramp : Environment Unit ℝ 1 :=
  { plateau with
    evaluate := fun x ↦ pure
      { value := x.get 0
        grad := #[1]
        ineq := [1]
        ineqGrad := ⟨1, [.replicate 1 0]⟩
        eq := []
        eqGrad := ⟨1, []⟩ } }

/-- What the ramp answers. -/
noncomputable def rampAt (x : Vector ℝ 1) : Observation ℝ 1 :=
  { plateauAt x with value := x.get 0, grad := .replicate 1 1 }

/-- Options that permit the random rung only, with one random direction and one reattempt. -/
noncomputable def singleDrawOptions : Options ℝ :=
  { Options.standard with
    ladder := { min := 4, max := 4, maxRandomAttempts := 1 }
    firstReattempts := { limit := 1, factor := 0.5 } }

theorem isValid_singleDrawOptions : singleDrawOptions.IsValid :=
  { Options.isValid_standard with
    ladderMin_le := le_rfl
    ladderMax_le := le_rfl
    ladderMin_le_max := le_rfl
    maxRandomAttempts_ne_zero := one_ne_zero
    firstReattempts_ne_zero := one_ne_zero
    firstReattemptFactor := Options.isValid_standard.reattemptFactor }

/-- These options, which force movement or do not. -/
noncomputable def rampOptions (forces : Bool) : Options ℝ :=
  { singleDrawOptions with forceMovement := forces }

theorem isValid_rampOptions (forces : Bool) : (rampOptions forces).IsValid :=
  { isValid_singleDrawOptions with }

@[inherit_doc ramp]
noncomputable def rampRun (forces : Bool) : RunContext Unit ℝ 1 := ⟨ramp, rampOptions forces, (1, 0)⟩

/-- The stage at which a run on the ramp begins. -/
noncomputable def rampStart (forces : Bool) : Stage Unit ℝ 1 :=
  .initial ramp (rampOptions forces) (rampAt (.replicate 1 0)) ()

/-- Its climb. -/
noncomputable def rampClimber (forces : Bool) : IterationContext Unit ℝ 1 :=
  (rampRun forces).climber (rampStart forces)

theorem toObservation?_ramp (x : Vector ℝ 1) :
    (ramp.evaluate x ()).1.toObservation? x = some (rampAt x) := rfl

theorem isFinite_ramp (x : Vector ℝ 1) : (rampAt x).isFinite = true := by
  simp [Observation.isFinite, rampAt, plateauAt, Constraint.isFinite]

theorem penaltyAt_ramp (x : Vector ℝ 1) (μ : ℝ) : (rampAt x).penaltyAt μ = μ * x.get 0 + 1 := by
  have hviolation : (rampAt x).tvL1 = 0 + Scalar.larger (1 : ℝ) 0 + 0 := rfl
  rw [Observation.penaltyAt, hviolation, Scalar.larger_real, max_eq_left zero_le_one, zero_add,
    add_zero]
  rfl

theorem penaltyGradAt_ramp (x : Vector ℝ 1) (μ : ℝ) :
    ((rampAt x).penaltyGradAt μ).get = fun _ ↦ μ := by
  have hviolation : ((rampAt x).violationGrad).get = 0 := by
    have hzero := penaltyGradAt_plateau x 0
    rw [Observation.penaltyGradAt, get_add, get_scale, zero_smul, zero_add] at hzero
    exact hzero
  have hgrad : ((rampAt x).grad).get = fun _ ↦ 1 := funext fun i ↦ by
    rw [Subsingleton.elim i 0]
    rfl
  rw [Observation.penaltyGradAt, get_add, get_scale, hviolation, hgrad]
  funext i
  simp

/-- The steps between two neighbours among the random numbers are even in number on both sides of zero
or odd on both, so zero is not among them. -/
theorem Generator.component_ne_zero (g : Generator) : (g.component : ℝ) ≠ 0 := by
  rw [component]
  have hpos : (0 : ℝ) < 1 - Scalar.epsilon := by
    show (0 : ℝ) < 1 - 1 / ((4503599627370496 : ℕ) : ℝ)
    norm_num
  generalize (g.word >>> 12).toNat = steps
  intro hzero
  have hreal : (2 * steps : ℝ) = 4503599627370495 := by
    have heps : (4503599627370496 : ℝ) * Scalar.epsilon = 1 := by
      show (4503599627370496 : ℝ) * (1 / ((4503599627370496 : ℕ) : ℝ)) = 1
      norm_num
    field_simp at hzero
    nlinarith
  have hnat : 2 * steps = 4503599627370495 := by exact_mod_cast hreal
  omega

/-- On the ramp the random rung always has a direction, and it descends. -/
theorem makeDirection_ramp (it : IterationContext Unit ℝ 1) {x : Vector ℝ 1} {μ : ℝ}
    (hit : it.observation = rampAt x) (hμ : 0 < μ) (s : Session Unit ℝ 1) :
    ∃ d s', it.makeDirection .random μ s = (.ok d, s') ∧ d.mu = μ ∧ d.slope < 0 ∧
      d.slope = μ * d.vector.get 0 := by
  let p : Proposal ℝ 1 := { vector := (s.generator.components 1).1, mu := μ, steered := none }
  have hmade : (it.makeDirection .random μ s).1
      = it.toDirectionContext.judge it.options.lenient .random p := by
    rw [IterationContext.fst_makeDirection, DirectionContext.result_attempt]
    rfl
  have hvector : p.vector.get 0 ≠ 0 := s.generator.component_ne_zero
  obtain ⟨hzero, -⟩ | ⟨d, hd, hjudged⟩ :=
    it.toDirectionContext.judge_cases it.options.lenient .random p
  · exact absurd (congrFun hzero 0) hvector
  have hslope : d.slope = μ * d.vector.get 0 := by
    rw [hd.slope_eq, hd.mu_eq, hit, dot_eq, penaltyGradAt_ramp, dotProduct, Fin.sum_univ_one]
  have hnonpos : d.slope ≤ 0 := DirectionContext.judge_random <|
    hjudged.imp (fun h ↦ h.2) fun h ↦ h.2.2
  have hne : d.slope ≠ 0 := by
    rw [hslope]
    refine mul_ne_zero hμ.ne' fun hzero ↦ hd.ne_zero (funext fun i ↦ ?_)
    rw [Subsingleton.elim i 0]
    exact hzero
  have hneg : d.slope < 0 := lt_of_le_of_ne hnonpos hne
  obtain ⟨-, hok⟩ | ⟨hnonneg, -, -⟩ := hjudged
  · exact ⟨d, (it.makeDirection .random μ s).2, Prod.ext (hmade.trans hok) rfl, hd.mu_eq, hneg, hslope⟩
  · exact absurd hneg hnonneg.not_gt

/-- On the ramp every step along a direction that descends is too short. -/
theorem verdict_ramp {task : SearchTask ℝ 1} {x : Vector ℝ 1} (hstart : task.start = rampAt x)
    (hslope : task.slope = task.mu * task.direction.get 0) (hneg : task.slope < 0) {step : ℝ}
    (hstep : 0 < step) : task.verdict singleDrawOptions.search
      (.ofObservation task step (rampAt (task.pointAt step))) = .tooShort := by
  have hdecrease : singleDrawOptions.search.decrease = (1e-4 : ℝ) := rfl
  have hcurvature : singleDrawOptions.search.curvature = (0.5 : ℝ) := rfl
  have hpoint : (task.pointAt step).get 0 = x.get 0 + step * task.direction.get 0 := by
    rw [SearchTask.pointAt, hstart, get_along]
    rfl
  rw [SearchTask.verdict, if_pos (Trial.isUsable_real _), if_neg, if_pos]
  · show dot ((rampAt (task.pointAt step)).penaltyGradAt task.mu) task.direction ≤ _
    rw [dot_eq, penaltyGradAt_ramp, dotProduct, Fin.sum_univ_one, ← hslope, hcurvature]
    nlinarith
  · show ¬ task.start.penaltyAt task.mu + singleDrawOptions.search.decrease * step * task.slope
      < (rampAt (task.pointAt step)).penaltyAt task.mu
    rw [hstart, penaltyAt_ramp, penaltyAt_ramp, hpoint, hdecrease, hslope]
    rw [hslope] at hneg
    nlinarith

/-- An attempt on the random rung fails on the ramp, and keeps a trial; it is followed by another one with
half the penalty parameter if any is left. -/
theorem attempted_ramp {forces : Bool} {left : Nat} {c c' : Climb ℝ 1} {s s' : Session Unit ℝ 1}
    {e : Option (ClimbEnd ℝ 1)} (hμ : 0 < c.mu)
    (h : (rampClimber forces).Attempted .random left c s e c' s') :
    e = (if left = 0 then some (.failed .unbounded) else none) ∧
      c'.lastDirection.isSome = true ∧ c'.lastTrial.isSome = true ∧
      c'.mu = (if left = 0 then c.mu else c.mu * 0.5) ∧
      c'.reattempts = if left = 0 then c.reattempts else c.reattempts + 1 := by
  let it := rampClimber forces
  obtain ⟨d, s₁, hd, hmu, hneg, hslope⟩ := makeDirection_ramp it (x := .replicate 1 0) rfl hμ s
  have hneg' : (it.task c d).slope < 0 := hneg
  have hslope' : (it.task c d).slope = (it.task c d).mu * (it.task c d).direction.get 0 := hslope
  have hcap : BelowCap 0 ((it.task c d).evaluationCap singleDrawOptions.search) := by
    rw [SearchTask.evaluationCap, if_neg hneg'.not_ge]
    trivial
  obtain ⟨error, s₂, hsearch, ⟨t, hreason⟩, hkept⟩ : ∃ e s',
      weakWolfe it.lookUp (it.task c d) singleDrawOptions.search s₁ = (.error e, s') ∧
        (∃ t, e.reason = .notBracketed t) ∧ e.kept.isSome = true :=
    weakWolfe_of_tooShort hneg' one_pos hcap
      (fun step s hstep ↦ ⟨_, _, RunContext.lookUp_of_toObservation? rfl (toObservation?_ramp _) rfl
        (isFinite_ramp _), verdict_ramp rfl hslope' hneg' hstep⟩) s₁
  have hs := it.searchAlong_of_not_lt c hmu.not_lt hsearch
  have hsame {d' : Direction ℝ 1} {s₁' s₂' : Session Unit ℝ 1} {c₂ : Climb ℝ 1}
      {result : SearchResult ℝ 1} (hd' : it.makeDirection .random c.mu s = (.ok d', s₁'))
      (hs' : it.searchAlong c d' s₁' = ((result, c₂), s₂')) :
      result = .error error ∧ c₂ = c := by
    cases hd.symm.trans hd'
    cases hs.symm.trans hs'
    exact ⟨rfl, rfl⟩
  cases h with
  | qp hd' | nonDescent hd' | degenerate hd' => cases hd.symm.trans hd'
  | moved hd' hs' => cases (hsame hd' hs').1
  | stopped hd' hs' hstopped | ascending hd' hs' hstopped =>
    cases (hsame hd' hs').1
    cases hreason.symm.trans hstopped
  | unacceptable hd' hs' hstopped =>
    cases (hsame hd' hs').1
    rcases hstopped with ⟨_, _, hstopped⟩ | hstopped <;> cases hreason.symm.trans hstopped
  | unbounded hd' hs' _ hleft =>
    obtain ⟨hresult, rfl⟩ := hsame hd' hs'
    cases hresult
    have hzero : left = 0 := by
      by_contra hne
      exact hleft ⟨rfl, hne⟩
    rw [if_pos hzero, if_pos hzero, if_pos hzero]
    exact ⟨rfl, rfl, hkept, rfl, rfl⟩
  | again hd' hs' _ _ hleft =>
    obtain ⟨hresult, rfl⟩ := hsame hd' hs'
    cases hresult
    rw [if_neg hleft, if_neg hleft, if_neg hleft]
    exact ⟨rfl, rfl, hkept, rfl, rfl⟩

/-- The climb on the ramp draws twice, and fails with half the penalty parameter. -/
theorem climbFrom_ramp (forces : Bool) (s : Session Unit ℝ 1) :
    ∃ c s' events last, (rampClimber forces).climbFrom
        (.start singleDrawOptions.ladder (rampClimber forces).engaged) (.start 1) s
          = ((.failed .unbounded, c), s') ∧
      c.mu = 0.5 ∧ c.reattempts = 1 ∧ c.lastDirection.isSome = true ∧ c.lastTrial.isSome = true ∧
      s'.transcript.toList = s.transcript.toList ++ events ∧ HasDraws 2 1 events ∧
      .failed last .exhausted ∈ events := by
  let it := rampClimber forces
  let a : ClimbStage Unit ℝ 1 := ⟨.start singleDrawOptions.ladder it.engaged, 1, .start 1, s⟩
  have hstart (engaged : Bool) : (Ladder.start singleDrawOptions.ladder engaged).level = .random ∧
      (Ladder.start singleDrawOptions.ladder engaged).next = .exhausted := by
    cases engaged <;> exact ⟨rfl, rfl⟩
  obtain ⟨hlevel, hnext⟩ : a.ladder.level = .random ∧ a.ladder.next = .exhausted := hstart it.engaged
  have hfirst := it.round_climbRound a
  generalize hb : it.climbRound a = next at hfirst
  cases hfirst with
  | exhausted h _ | ended h _ | escalated h _ => cases (attempted_ramp one_pos (hlevel ▸ h)).1
  | @again c₁ s₁ h₁ =>
    rw [hlevel] at h₁
    obtain ⟨first, hfirst, hdraws₁⟩ := h₁.exists_draws
    obtain ⟨-, -, -, hmu₁, hreattempts₁⟩ := attempted_ramp one_pos h₁
    rw [if_neg one_ne_zero] at hmu₁ hreattempts₁
    replace hmu₁ : c₁.mu = 0.5 := hmu₁.trans (one_mul _)
    replace hreattempts₁ : c₁.reattempts = 1 := hreattempts₁
    have hpos : 0 < c₁.mu := by
      rw [hmu₁]
      norm_num
    let b : ClimbStage Unit ℝ 1 := { a with left := 0, climb := c₁, session := s₁ }
    have hsecond := it.round_climbRound b
    generalize hc : it.climbRound b = next at hsecond
    cases hsecond with
    | again h => cases (attempted_ramp hpos (hlevel ▸ h)).1
    | escalated _ hne => exact absurd hnext hne
    | ended h hne => exact absurd (Option.some.inj (attempted_ramp hpos (hlevel ▸ h)).1) (hne _)
    | @exhausted f c₂ s₂ h₂ =>
      rw [show b.ladder.level = .random from hlevel] at h₂
      obtain ⟨second, hsecond, hdraws₂⟩ := h₂.exists_draws
      obtain ⟨hend, hdirection, htrial, hmu₂, hreattempts₂⟩ := attempted_ramp hpos h₂
      cases hend
      rw [if_pos rfl] at hmu₂ hreattempts₂
      have hfailed : HasDraws (R := ℝ) (n := 1) 0 0 [.failed a.ladder a.ladder.next] := ⟨rfl, rfl⟩
      simp only [and_true, reduceCtorEq, and_false, if_true, if_false] at hdraws₁ hdraws₂
      have hdraws : HasDraws 2 1 (first ++ second ++ [.failed a.ladder a.ladder.next]) :=
        (hdraws₁.append hdraws₂).append hfailed
      refine ⟨c₂, (note (.failed b.ladder b.ladder.next) s₂).2,
        first ++ second ++ [.failed a.ladder a.ladder.next], a.ladder, ?_, hmu₂.trans hmu₁,
        hreattempts₂.trans hreattempts₁, hdirection, htrial, ?_, hdraws, ?_⟩
      · rw [IterationContext.climbFrom_eq, IterationContext.climbOn_apply]
        show (it.climbRound a).elim _ _ = _
        rw [hb, Sum.elim_inl, IterationContext.climbOn_apply]
        show (it.climbRound b).elim _ _ = _
        rw [hc]
        rfl
      · rw [toList_note, hsecond, show b.session = s₁ from rfl, hfirst]
        simp [a, b]
      · rw [← hnext]
        exact List.mem_append_right _ (List.mem_singleton_self _)

theorem test_rampStart (forces : Bool) : (rampRun forces).test (rampStart forces) = none := if_neg (by
  rw [Bool.not_eq_true]
  exact isFeasible_plateau (.replicate 1 0) _)

theorem exists_minimize_rampOptions (forces : Bool) :
    ∃ r s as, minimize ramp (rampOptions forces) (.replicate 1 0) () = (.ok r, s) ∧
      Path (rampRun forces).iterateOnce (rampStart forces :: as) (r, s) := by
  obtain ⟨r, s, hrun⟩ :
      ∃ r s, minimize ramp (rampOptions forces) (.replicate 1 0) () = (.ok r, s) :=
    exists_minimize_eq_ok (isValid_rampOptions forces) one_ne_zero (toObservation?_ramp _)
      (isFinite_ramp _) (allFinite_real _)
  obtain ⟨-, -, first, as, hfirst, -, -, hpath⟩ := minimize_eq_ok hrun
  cases hfirst.symm.trans (toObservation?_ramp _)
  exact ⟨r, s, as, hrun, hpath⟩

/-- The only iteration of the run on the ramp draws twice. -/
theorem exists_minimize_ramp :
    ∃ r s, minimize ramp singleDrawOptions (.replicate 1 0) () = (.ok r, s) ∧ r.history.size = 1 ∧
      HasDraws 2 1 (s.eventsOf 0) := by
  obtain ⟨r, s, as, hrun, hpath⟩ := exists_minimize_rampOptions false
  obtain ⟨c, s', events, -, hclimb, -, -, -, -, hevents, hdraws, -⟩ :=
    climbFrom_ramp false ((rampRun false).entered (rampStart false))
  have hit : (rampClimber false).run 1 ((rampRun false).entered (rampStart false))
      = ((.error .lineSearchUnbounded, c.mu), s') := by
    have hclimb' : (rampClimber false).climbFrom (.start (rampClimber false).options.ladder
      (rampClimber false).engaged) (.start 1) ((rampRun false).entered (rampStart false))
        = ((.failed .unbounded, c), s') := hclimb
    rw [IterationContext.run, bind_apply, hclimb']
    rfl
  have hlast := RunContext.iterateOnce_of_run_eq_error (test_rampStart false) (Nat.succ_ne_zero 999) rfl hit
  have hend : (r, s) = (rampRun false).ending (rampStart false) c.mu .lineSearchUnbounded s' := by
    cases hpath with
    | cons h => cases hlast.symm.trans h
    | last h => exact Sum.inr.inj (h.symm.trans hlast)
  have hhistory : r.history = #[(rampRun false).record (rampStart false)] := congrArg (·.1.history) hend
  obtain ⟨b, hb, -, -, hnoted, -⟩ := RunContext.noted_eventsOf (k := 0) hpath
    (show r.history[0]? = some ((rampRun false).record (rampStart false)) by rw [hhistory]; rfl)
  cases hb
  obtain ⟨climb, closing, hall, hclimb', hclosing⟩ :=
    hnoted.exists_climb (test_rampStart false) (Nat.succ_ne_zero 999) rfl hit
  cases List.append_cancel_left (hclimb'.symm.trans hevents)
  have hclosed := hasDraws_of_isDrawless fun e he ↦ (hclosing e he).isDrawless
  refine ⟨r, s, hrun, by rw [hhistory]; rfl, ?_⟩
  rw [hall]
  exact hdraws.append hclosed

/-- The limits of the run on the ramp, where one random direction and one reattempt are allowed. -/
theorem random_directions_are_limited_ramp :
    ∃ r s, minimize ramp singleDrawOptions (.replicate 1 0) () = (.ok r, s) ∧
      (s.eventsOf 0).countP (·.isDraw) ≤ 1 + (s.eventsOf 0).countP (·.isRedraw) ∧
      (s.eventsOf 0).countP (·.isRedraw) ≤ 1 * 1 := by
  obtain ⟨r, s, hrun, hsize, -⟩ := exists_minimize_ramp
  have hzero : 0 < r.history.size := by rw [hsize]; exact one_pos
  obtain ⟨hdraws, hredraws, -⟩ :=
    random_directions_are_limited hrun (k := 0) (Array.getElem?_eq_getElem hzero)
  exact ⟨r, s, hrun, hdraws, hredraws⟩

/-- **The limit of the options alone is not kept**: on the ramp a run that may try one random direction
in an iteration tries two. -/
theorem not_random_directions_le_maxRandomAttempts :
    ¬ ∀ r s, minimize ramp singleDrawOptions (.replicate 1 0) () = (.ok r, s) →
      ∀ k, (s.eventsOf k).countP (·.isDraw) ≤ singleDrawOptions.ladder.maxRandomAttempts := by
  intro h
  obtain ⟨r, s, hrun, -, hdraws, -⟩ := exists_minimize_ramp
  have hle := h r s hrun 0
  rw [hdraws] at hle
  exact absurd hle (by decide)

/-! ## A run that forces movement -/

/-- On the ramp a step is forced after the reattempt, with half the penalty parameter. -/
theorem exists_move_ramp : ∃ move s' events last,
    (rampRun true).iterateOnce (rampStart true)
      = .inl ((rampRun true).following (rampStart true) move 0.5 s') ∧
    move.forced = true ∧ move.reattempts = 1 ∧
    (rampClimber true).run 1 ((rampRun true).entered (rampStart true)) = ((.ok move, 0.5), s') ∧
    s'.transcript.toList = ((rampRun true).entered (rampStart true)).transcript.toList ++ events ∧
    .failed last .exhausted ∈ events := by
  obtain ⟨c, s', events, last, hclimb, hmu, hreattempts, hdirection, htrial, hevents, -, hexhausted⟩ :=
    climbFrom_ramp true ((rampRun true).entered (rampStart true))
  obtain ⟨d, hd⟩ := Option.isSome_iff_exists.1 hdirection
  obtain ⟨t, ht⟩ := Option.isSome_iff_exists.1 htrial
  let move := IterationContext.forcedMove c d t.step t.iterate.toObservation c.evaluations
  have hforced : (rampClimber true).force c .lineSearchUnbounded s'
      = (.ok move, (note (.forced t.step d.level) s').2) := by
    rw [IterationContext.force, hd]
    dsimp only
    rw [ht]
    rfl
  have hrun : (rampClimber true).run 1 ((rampRun true).entered (rampStart true))
      = ((.ok move, 0.5), (note (.forced t.step d.level) s').2) := by
    have hclimb' : (rampClimber true).climbFrom (.start (rampClimber true).options.ladder
      (rampClimber true).engaged) (.start 1) ((rampRun true).entered (rampStart true))
        = ((.failed .unbounded, c), s') := hclimb
    have hforces : (rampClimber true).options.forceMovement = true := rfl
    rw [IterationContext.run, bind_apply, hclimb']
    dsimp only
    rw [hforces, if_pos rfl, bind_apply]
    show ((_, c.mu), _) = _
    rw [hmu, ClimbFailure.termination, hforced]
  refine ⟨move, _, events ++ [.forced t.step d.level], last,
    RunContext.iterateOnce_of_run (test_rampStart true) (Nat.succ_ne_zero 999) rfl hrun, rfl, hreattempts,
    hrun, ?_, List.mem_append_left _ hexhausted⟩
  rw [toList_note, hevents, List.append_assoc]

/-- So is the first step of a run on the ramp that forces movement. -/
theorem exists_minimize_forcedRamp :
    ∃ (r : RunResult ℝ 1) (s : Session Unit ℝ 1) (a b : IterationRecord ℝ 1) (step : StepRecord ℝ)
        (last : Ladder), minimize ramp (rampOptions true) (.replicate 1 0) () = (.ok r, s) ∧
      r.history[0]? = some a ∧ r.history[1]? = some b ∧ a.iterate.mu = 1 ∧ b.iterate.mu = 0.5 ∧
      b.step = some step ∧ step.forced = true ∧ step.reattempts = 1 ∧
      .failed last .exhausted ∈ s.eventsOf 0 := by
  obtain ⟨r, s, as, hrun, hpath⟩ := exists_minimize_rampOptions true
  obtain ⟨move, s', events, last, hmove, hforced, hreattempts, hclimb, hevents, hexhausted⟩ :=
    exists_move_ramp
  have hfirst : r.history[0]? = some ((rampRun true).record (rampStart true)) :=
    RunContext.first_record hpath rfl
  obtain ⟨b, hb, -, -, hnoted, hnext, -⟩ := RunContext.noted_eventsOf (k := 0) hpath hfirst
  cases hb
  obtain ⟨climb, closing, hall, hclimb', -⟩ :=
    hnoted.exists_climb (test_rampStart true) (Nat.succ_ne_zero 999) rfl hclimb
  cases List.append_cancel_left (hclimb'.symm.trans hevents)
  refine ⟨r, s, _, _, _, last, hrun, hfirst, hnext _ hmove, rfl, rfl, rfl, hforced, hreattempts, ?_⟩
  rw [hall]
  exact List.mem_append_left _ hexhausted

end ExactPenalty
