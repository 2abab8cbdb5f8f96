import ExactPenalty.Proofs.Run.Relabelled
import ExactPenalty.Proofs.Run.StepRungs

/-!
# Runs without constraints

Without constraints steering is never engaged.  The two steering rungs are then other names for the two
rungs above them, and a run that permits those may as well leave the steering rungs out.  So a range of
steering rungs gives the same run as the range two above it, but for the names of the rungs
(`Ladder.IsTwoBelow`), and a range that reaches beyond the steering rungs gives the same run as what
remains of it without them (`Ladder.start_max_two`).
-/

set_option autoImplicit false

namespace ExactPenalty

open Session ExactPenalty.Action

/-! ## Ladders that do not steer -/

namespace Ladder

variable {l l' : Ladder} {o : LadderOptions}

/-- The first ladder is on a steering rung and may climb no higher, the second one is two rungs above it
and may climb two rungs higher; and neither steers. -/
structure IsTwoBelow (l l' : Ladder) : Prop where
  not_engaged : l.engaged = false
  not_exhausted : l.exhausted = false
  index_le : l.level.index ≤ l.max
  max_le : l.max ≤ 1
  eq : l' = { l with level := l.level.counterpart, max := l.max + 2 }

/-- A failure exhausts both ladders, or leads both of them one rung up. -/
theorem IsTwoBelow.next_cases (h : l.IsTwoBelow l') :
    (l.next = .exhausted ∧ l'.next = .exhausted) ∨
      ∃ level, l.next = .escalated level ∧ l'.next = .escalated level.counterpart ∧
        level.index ≤ l.max ∧ level ≠ .random := by
  obtain ⟨level, attempts, max, limit, engaged, exhausted⟩ := l
  obtain ⟨rfl, rfl, hindex, hmax, rfl⟩ := h
  dsimp only at hindex hmax
  interval_cases max <;> cases level <;> simp only [Level.index] at hindex
  · exact .inl ⟨rfl, rfl⟩
  · omega
  · omega
  · omega
  · omega
  · exact .inr ⟨.steeringIdentity, rfl, rfl, le_rfl, by decide⟩
  · exact .inl ⟨rfl, rfl⟩
  · omega
  · omega
  · omega

theorem climbsAlike_isTwoBelow : ClimbsAlike .counterparts false IsTwoBelow where
  level_eq h := by
    rw [h.eq]
    rfl
  plain _ := rfl
  plain_relabelled _ := rfl
  exhausted_iff h := by
    rcases h.next_cases with ⟨hnext, hnext'⟩ | ⟨level, hnext, hnext', -⟩ <;> simp [hnext, hnext']
  climb {l l'} h hnot := by
    rcases h.next_cases with ⟨hnext, -⟩ | ⟨level, hnext, hnext', hindex, hrandom⟩
    · exact absurd hnext hnot
    · have hrandom' : level.counterpart ≠ .random := mt Level.counterpart_eq_random_iff.1 hrandom
      show IsTwoBelow (l.after l.next) (l'.after l'.next)
      rw [hnext, hnext', after, after, if_neg hrandom, if_neg hrandom', h.eq]
      exact ⟨h.not_engaged, h.not_exhausted, hindex, h.max_le, rfl⟩

/-- The range two above a range of steering rungs. -/
theorem isTwoBelow_start (hmin : o.min ≤ o.max) (hmax : o.max ≤ 1) :
    (start o false).IsTwoBelow (start { o with min := o.min + 2, max := o.max + 2 } false) := by
  have hwithin := isWithin_start hmin (hmax.trans (by decide)) false
  refine ⟨rfl, rfl, hwithin.index_le, hmax, ?_⟩
  obtain ⟨min, max, limit⟩ := o
  dsimp only at hmin hmax ⊢
  interval_cases max <;> interval_cases min <;> rfl

/-- The same ladder is climbed in the same way, and from a plain rung on it does not steer. -/
theorem climbsAlike_of_two_le (engaged : Bool) :
    ClimbsAlike .none engaged fun l l' ↦ l' = l ∧ 2 ≤ l.level.index where
  level_eq h := congrArg Ladder.level h.1
  plain h := by rw [Level.usesSteering_eq_false_iff.2 h.2, Bool.and_false]
  plain_relabelled h := (congrArg (engaged && ·) (Level.usesSteering_eq_false_iff.2 h.2)).trans
    (Bool.and_false _)
  exhausted_iff h := by rw [h.1]
  climb h hnext := ⟨by rw [h.1], h.2.trans (index_le_climb hnext)⟩

/-- Where nothing is steered, the steering rungs are left out anyway. -/
theorem start_max_two (hmin : o.min ≤ 4) (hmax : 2 ≤ o.max) :
    start { o with min := Nat.max o.min 2 } false = start o false ∧
      2 ≤ (start o false).level.index := by
  have hskips : skipsSteering o.max false = true := LadderOptions.skipsSteering_iff.2 ⟨rfl, hmax⟩
  have hlevel : (start o false).level = (Level.ofIndex? (Nat.max o.min 2)).getD .random := by
    rw [start, initialLevel, if_pos hskips]
  refine ⟨?_, ?_⟩
  · rw [start, start, initialLevel, initialLevel, if_pos hskips, if_pos hskips]
    simp
  · obtain ⟨level, hlevel'⟩ := exists_ofIndex? (Nat.max_le.2 ⟨hmin, by decide⟩ : Nat.max o.min 2 ≤ 4)
    rw [hlevel, hlevel', Option.getD_some, Level.index_of_ofIndex? hlevel']
    exact Nat.le_max_right _ _

end Ladder

/-! ## Runs -/

variable {σ R : Type} [Scalar R] {n : Nat}

/-- The steps of a run are made on permitted rungs. -/
theorem RunContext.level_le_of_path {run : RunContext σ R n} {a : Stage σ R n}
    {as : List (Stage σ R n)} {r : RunResult R n × Session σ R n} (hoptions : run.options.IsValid)
    (hpath : Path run.iterateOnce (a :: as) r) (hempty : a.progress.history = #[])
    (hstep : a.progress.step = none) {record : IterationRecord R n} (hrecord : record ∈ r.1.history)
    {step : StepRecord R} (h : record.step = some step) :
    step.level.index ≤ run.options.ladder.max := by
  have hlevels := hpath.forall_mem
    (P := fun a ↦ ∀ step, a.progress.step = some step → step.level.index ≤ run.options.ladder.max)
    (fun a b _ hab _ step hb ↦ by
      obtain ⟨move, μ, s, -, hmove, rfl⟩ := exists_move hab
      cases hb
      exact (IterationContext.permits_of_run hoptions.isProper hmove).le_max)
    (fun step ha ↦ by rw [hstep] at ha; cases ha)
  obtain ⟨k, hk⟩ := Array.getElem?_of_mem hrecord
  obtain ⟨b, hb, rfl⟩ := exists_stage hpath hempty hk
  exact hlevels b (List.mem_of_getElem? hb) step h

variable {env : Environment σ R n} {options : Options R} {x₀ : Vector R n} {world : σ}

/-- **Steering rungs that do not steer are the rungs two above them.**  For a problem whose answer at the
starting point has no constraints, a run that is confined to the steering rungs has the result of the
run that is confined to the rungs two above, but for the rungs of its steps, and these are two higher in
the other run.  If a run may climb beyond the steering rungs, it makes no difference whether they are
permitted. -/
theorem unsteered_rungs_are_their_counterparts (hoptions : options.IsValid)
    (hineq : (env.evaluate x₀ world).1.ineq = []) (heq : (env.evaluate x₀ world).1.eq = []) :
    (options.ladder.max ≤ 1 →
      (minimize env
          { options with ladder := { options.ladder with
              min := options.ladder.min + 2, max := options.ladder.max + 2 } } x₀ world).1
        = (minimize env options x₀ world).1.map (RunResult.relabelled .counterparts) ∧
      ∀ r, (minimize env options x₀ world).1 = .ok r →
        ∀ record ∈ r.history, ∀ step, record.step = some step →
          step.level.counterpart.index = step.level.index + 2) ∧
    (2 ≤ options.ladder.max →
      (minimize env
          { options with ladder := { options.ladder with min := Nat.max options.ladder.min 2 } }
          x₀ world).1
        = (minimize env options x₀ world).1) := by
  have hengaged {shape : Nat × Nat} {p : Progress R n}
      (hshape : ((env.evaluate x₀ world).1.toObservation? x₀).map (·.shape) = some shape)
      (hp : p.current.shape = shape) (m : Mat R n n) :
      (RunContext.iteration ⟨env, options, shape⟩ p m).engaged = false := by
    obtain ⟨first, hfirst, rfl⟩ := Option.map_eq_some_iff.1 hshape
    exact isEngaged_of_shape_eq_zero (hp.trans (Evaluation.shape_of_no_values hfirst hineq heq)) _
  have henv := env.answersAlike_eq options.budget.seconds
  refine ⟨fun hmax ↦ ⟨?_, fun r hrun record hrecord step hstep ↦ ?_⟩, fun hmax ↦ ?_⟩
  · refine henv.minimize_relabelled .counterparts rfl hoptions ?_ fun shape p m hshape hp ↦ ?_
    · exact { hoptions with
        ladderMin_le := (Nat.add_le_add_right (hoptions.ladderMin_le_max.trans hmax) 2).trans (by decide)
        ladderMax_le := (Nat.add_le_add_right hmax 2).trans (by decide)
        ladderMin_le_max := Nat.add_le_add_right hoptions.ladderMin_le_max 2 }
    · have hfalse := hengaged hshape hp m
      have hladders : Ladder.ClimbsAlike .counterparts
          (RunContext.iteration ⟨env, options, shape⟩ p m).engaged Ladder.IsTwoBelow :=
        hfalse ▸ Ladder.climbsAlike_isTwoBelow
      refine Environment.AnswersAlike.mirrors_run_of_start .counterparts henv hladders ?_ p.current.mu
      rw [hfalse]
      exact Ladder.isTwoBelow_start hoptions.ladderMin_le_max hmax
  · obtain ⟨hoptions, -, first, as, -, -, -, hpath⟩ := minimize_eq_ok (Prod.ext hrun rfl)
    exact Level.index_counterpart
      ((RunContext.level_le_of_path hoptions hpath rfl rfl hrecord hstep).trans hmax)
  · refine (henv.minimize_relabelled .none rfl hoptions ?_ fun shape p m hshape hp ↦ ?_).trans
      (RunResult.map_relabelled_none _)
    · exact { hoptions with
        ladderMin_le := Nat.max_le.2 ⟨hoptions.ladderMin_le, by decide⟩
        ladderMin_le_max := Nat.max_le.2 ⟨hoptions.ladderMin_le_max, hmax⟩ }
    · refine Environment.AnswersAlike.mirrors_run_of_start .none henv
        (Ladder.climbsAlike_of_two_le _) ?_ p.current.mu
      rw [hengaged hshape hp m]
      exact Ladder.start_max_two hoptions.ladderMin_le hmax

/-- Down the parabola the steering rungs alone, the two rungs above them, and all four of them lead to
runs with the same iterates, which are more than one. -/
theorem unsteered_rungs_are_their_counterparts_parabola :
    ∃ r, (minimize parabola
          { Options.standard with ladder := { min := 0, max := 1, maxRandomAttempts := 5 } }
          (.replicate 1 1) ()).1 = .ok r ∧
      (minimize parabola
          { Options.standard with ladder := { min := 2, max := 3, maxRandomAttempts := 5 } }
          (.replicate 1 1) ()).1 = .ok (r.relabelled .counterparts) ∧
      (minimize parabola .standard (.replicate 1 1) ()).1 = .ok (r.relabelled .counterparts) ∧
      2 ≤ r.history.size := by
  let confined : Options ℝ :=
    { Options.standard with ladder := { min := 0, max := 1, maxRandomAttempts := 5 } }
  have hconfined : confined.IsValid :=
    { Options.isValid_standard with
      ladderMin_le := Nat.zero_le 4
      ladderMax_le := (show 1 ≤ 4 by decide)
      ladderMin_le_max := Nat.zero_le 1 }
  obtain ⟨r, s, hrun⟩ : ∃ r s, minimize parabola confined (.replicate 1 1) () = (.ok r, s) :=
    exists_minimize_eq_ok hconfined one_ne_zero (toObservation?_parabola _) (isFinite_parabolaAt _)
      (Linear.allFinite_real _)
  have hresult : (minimize parabola confined (.replicate 1 1) ()).1 = .ok r := congrArg Prod.fst hrun
  have habove := ((unsteered_rungs_are_their_counterparts hconfined rfl rfl).1 (le_refl 1)).1.trans
    (congrArg _ hresult)
  have hall := ((unsteered_rungs_are_their_counterparts Options.isValid_standard rfl rfl).2
    (show 2 ≤ 3 by decide)).symm.trans habove
  obtain ⟨r', s', hrun', hlength⟩ := exists_minimize_parabola_two_le
  have hsame : r' = r.relabelled .counterparts :=
    Except.ok.inj ((congrArg Prod.fst hrun').symm.trans hall)
  rw [hsame, Array.length_toList, RunResult.relabelled, Array.size_map] at hlength
  exact ⟨r, hresult, habove, hall, hlength⟩

end ExactPenalty
