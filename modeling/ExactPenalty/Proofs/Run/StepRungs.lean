import ExactPenalty.Proofs.Attempts
import ExactPenalty.Proofs.Ladder.Walk
import ExactPenalty.Proofs.Run.Decrease

/-!
# The rungs of the steps of a run

Every step of a run is made along a direction of a rung that the climb of its iteration may visit: an
accepted step along a direction of the rung that was tried, and a forced one along the last direction,
which is of some rung tried before.  `Ladder.Walks` says which rungs these are, and
`steps_are_on_the_ladder` puts the two together: the walk of a ladder, and the rungs of a run with it.
-/

set_option autoImplicit false

namespace ExactPenalty

open Session ExactPenalty.Action

variable {σ R : Type} [Scalar R] {n : Nat}

/-! ## Climbs -/

namespace IterationContext

variable {it : IterationContext σ R n} {level : Level} {left : Nat} {c c' : Climb R n} {μ μ' : R}
    {s s' : Session σ R n}

/-- A direction that an attempt made, descending or not, is one of the rung that was tried. -/
theorem level_of_makeDirection {result : Except (DirectionError R n) (Direction R n)}
    (h : it.makeDirection level μ s = (result, s')) {d : Direction R n}
    (hd : result = .ok d ∨ result = .error (.nonDescent d)) : d.level = level := by
  obtain ⟨attempt, hattempt, hresult, -⟩ := exists_attempt_of_makeDirection h
  have hdirection : attempt.direction? = some d := by
    rw [DirectionAttempt.direction?, hresult]
    rcases hd with rfl | rfl <;> rfl
  rw [← hattempt] at hdirection
  exact DirectionContext.level_of_direction? hdirection

/-- The last direction of a climb is one of a permitted rung. -/
def RemembersPermitted (it : IterationContext σ R n) (c : Climb R n) : Prop :=
  ∀ d, c.lastDirection = some d → it.options.ladder.Permits it.engaged d.level

/-- On a permitted rung only directions of that rung are made, so the last direction and the direction
of an accepted step are permitted. -/
theorem Attempted.permits {e : Option (ClimbEnd R n)} (h : it.Attempted level left c s e c' s')
    (hlevel : it.options.ladder.Permits it.engaged level) (hc : it.RemembersPermitted c) :
    it.RemembersPermitted c' ∧ ∀ move, e = some (.moved move) →
      it.options.ladder.Permits it.engaged move.direction.level := by
  have hlowered {d : Direction R n} {r : SearchResult R n} {c₁ : Climb R n} {s₁ s₂ : Session σ R n}
      (hs : it.searchAlong c d s₁ = ((r, c₁), s₂)) : it.RemembersPermitted c₁ := by
    obtain ⟨rfl, -⟩ := searchAlong_eq hs
    rw [Climb.lowered]
    split_ifs
    · exact hc
    · exact hc
  have hmade {d : Direction R n} {s₁ : Session σ R n} {c₁ : Climb R n}
      {result : Except (DirectionError R n) (Direction R n)}
      (hd : it.makeDirection level c.mu s = (result, s₁))
      (hresult : result = .ok d ∨ result = .error (.nonDescent d)) (hlast : c₁.lastDirection = some d) :
      it.RemembersPermitted c₁ := by
    intro d' hd'
    cases hlast.symm.trans hd'
    rw [level_of_makeDirection hd hresult]
    exact hlevel
  cases h with
  | qp | degenerate => exact ⟨hc, by simp⟩
  | nonDescent hd => exact ⟨hmade hd (.inr rfl) rfl, by simp⟩
  | moved hd hs =>
    refine ⟨hlowered hs, ?_⟩
    rintro move ⟨⟩
    rw [show (acceptedMove _ _ _).direction.level = level from level_of_makeDirection hd (.inl rfl)]
    exact hlevel
  | stopped hd | ascending hd | unacceptable hd | unbounded hd | again hd =>
    exact ⟨hmade hd (.inl rfl) rfl, by simp⟩

/-- The ladder is at a permitted position, and the last direction is permitted. -/
structure IsOnLadder (it : IterationContext σ R n) (a : ClimbStage σ R n) : Prop where
  ladder : a.ladder.IsOn it.options.ladder it.engaged
  climb : it.RemembersPermitted a.climb

theorem IsOnLadder.climbRound {a b : ClimbStage σ R n} (ho : it.options.ladder.IsProper)
    (ha : it.IsOnLadder a) (h : it.climbRound a = .inl b) : it.IsOnLadder b := by
  have hround := it.round_climbRound a
  rw [h] at hround
  cases hround with
  | again hattempt => exact ⟨ha.ladder, (hattempt.permits ha.ladder.permits ha.climb).1⟩
  | escalated hattempt hnext =>
    exact ⟨ha.ladder.climb ho hnext, (hattempt.permits ha.ladder.permits ha.climb).1⟩

omit [Scalar R] in
theorem isOnLadder_start (it : IterationContext σ R n) (ho : it.options.ladder.IsProper) (μ : R)
    (s : Session σ R n) :
    it.IsOnLadder ⟨.start it.options.ladder it.engaged, it.reattempts.limit, .start μ, s⟩ :=
  ⟨Ladder.isOn_start ho it.engaged, fun _ h ↦ nomatch h⟩

/-- **The step of an iteration is made along a direction of a permitted rung**, forced or not. -/
theorem permits_of_run (ho : it.options.ladder.IsProper) {move : Move R n}
    (h : it.run μ s = ((.ok move, μ'), s')) :
    it.options.ladder.Permits it.engaged move.direction.level := by
  have hstart := it.isOnLadder_start ho μ s
  have hround (a b : ClimbStage σ R n) (hab : it.climbRound a = .inl b) (ha : it.IsOnLadder a) :
      it.IsOnLadder b := ha.climbRound ho hab
  obtain ⟨c, -, hclimb | ⟨failure, reason, s₁, hclimb, -, hforce⟩⟩ := run_eq_ok h
  all_goals
    obtain ⟨a, s₂, ha, hattempt, -⟩ := exists_last_attempt hround hstart hclimb
    obtain ⟨hremembers, hmove⟩ := hattempt.permits ha.ladder.permits ha.climb
  · exact hmove move rfl
  · obtain ⟨d, hd, ⟨_, -, rfl, -⟩ | ⟨-, _, _, -, rfl, -⟩⟩ := force_eq_ok hforce
    · exact hremembers d hd
    · exact hremembers d hd

end IterationContext

/-! ## Runs -/

theorem Options.IsValid.isProper {options : Options R} (h : options.IsValid) :
    options.ladder.IsProper :=
  ⟨h.ladderMin_le_max, h.ladderMax_le, h.maxRandomAttempts_ne_zero⟩

/-- **The walk up the ladder.**  A climb that fails everywhere visits the rungs from the lowest to the
highest permitted one in their order, each of them once but the random rung as often as the options say,
and the failure at the last of these visits is the first one that exhausts the ladder.  So in every run
each step tells whether steering was engaged at the iterate before, and is of a rung that the ladder
visits then. -/
theorem steps_are_on_the_ladder {o : LadderOptions} (ho : o.IsProper) :
    (∀ engaged,
      (Level.between (o.lowest engaged) o.max).map (·.index)
          = List.range' (o.lowest engaged) (o.max + 1 - o.lowest engaged) ∧
        (Ladder.start o engaged).Walks (o.positions engaged)) ∧
      ∀ {σ R : Type} [Scalar R] {n : Nat} {env : Environment σ R n} {options : Options R}
        {x₀ : Vector R n} {world : σ} {r : RunResult R n} {s : Session σ R n},
        minimize env options x₀ world = (.ok r, s) → options.ladder = o →
          ∀ (k : Nat) (before after : IterationRecord R n),
            r.history[k]? = some before → r.history[k + 1]? = some after →
              ∃ step, after.step = some step ∧
                step.engaged
                  = isEngaged before.iterate.toObservation options.steering.ineqMargin ∧
                o.lowest step.engaged ≤ step.level.index ∧ step.level.index ≤ o.max := by
  refine ⟨fun engaged ↦ ⟨Level.map_index_between ho.max_le, Ladder.walks_start ho engaged⟩, ?_⟩
  rintro σ R _ n env options x₀ world r s hrun rfl k before after hk hk'
  obtain ⟨hoptions, -, first, as, -, -, -, hpath⟩ := minimize_eq_ok hrun
  obtain ⟨a, -, b, -, rfl, rfl, -, hab⟩ := RunContext.exists_stages hpath rfl hk hk'
  obtain ⟨move, μ, s₁, -, hmove, rfl⟩ := RunContext.exists_move hab
  have hpermits := IterationContext.permits_of_run hoptions.isProper hmove
  exact ⟨_, rfl, rfl, hpermits.lowest_le, hpermits.le_max⟩

/-- Steering is not engaged on the way down the parabola, so its first step is of one of the two rungs
above; and a ladder that permits all rungs, and two random directions, is walked like this. -/
theorem steps_are_on_the_ladder_parabola :
    (Ladder.start { min := 0, max := 4, maxRandomAttempts := 2 } true).Walks
        [(.steering, 0), (.steeringIdentity, 0), (.quasiNewton, 0), (.steepestDescent, 0), (.random, 1),
          (.random, 2)] ∧
      ∃ r s, minimize parabola .standard (.replicate 1 1) () = (.ok r, s) ∧
        ∃ (a b : IterationRecord ℝ 1) (step : StepRecord ℝ), r.history[0]? = some a ∧
          r.history[1]? = some b ∧ b.step = some step ∧ step.engaged = false ∧
          2 ≤ step.level.index ∧ step.level.index ≤ 3 := by
  refine ⟨((steps_are_on_the_ladder (o := { min := 0, max := 4, maxRandomAttempts := 2 })
    ⟨by decide, by decide, by decide⟩).1 true).2, ?_⟩
  obtain ⟨r, s, hrun, hlength⟩ := exists_minimize_parabola_two_le
  rw [Array.length_toList] at hlength
  have ha : r.history[0]? = some r.history[0] := Array.getElem?_eq_getElem (by omega)
  have hb : r.history[1]? = some r.history[1] := Array.getElem?_eq_getElem (by omega)
  obtain ⟨step, hstep, hengaged, hlevel⟩ :=
    (steps_are_on_the_ladder Options.isValid_standard.isProper).2 hrun rfl 0 _ _ ha hb
  have hfalse : step.engaged = false := by
    obtain ⟨-, -, first, as, hfirst, -, -, hpath⟩ := minimize_eq_ok hrun
    rw [hengaged, Option.some.inj (ha.symm.trans (RunContext.first_record hpath rfl))]
    exact isEngaged_of_shape_eq_zero (Evaluation.shape_of_no_values hfirst rfl rfl) _
  rw [hfalse] at hlevel
  exact ⟨r, s, hrun, _, _, step, ha, hb, hstep, hfalse, hlevel⟩

end ExactPenalty
