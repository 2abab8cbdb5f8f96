import ExactPenalty.Proofs.Run.Decrease
import ExactPenalty.Proofs.Run.Endings

/-!
# When a run stops

The tests are stated here on the finished history: `StoppingOptions.Passes` says of a position in
a history that its record passes the test of a verdict, in terms of that record and the one before
it alone.  `history_stops_at_verdict` then says that a run stops at the first record that passes a
test, with the first verdict whose test that record passes.

A run makes its tests while the record in question is the last one, and a record passes the same
tests whatever is recorded after it (`StoppingOptions.passes_push_iff`).  So what is known of the
history at a stage (`Progress.IsOpen`) stays true when the next record is pushed.
-/

set_option autoImplicit false

namespace ExactPenalty

variable {σ R : Type} [Scalar R] {n : Nat}

/-! ## Tests on a history -/

/-- The penalty function hardly decreases from an iterate to the next one, at the penalty parameter
of the latter. -/
def StoppingOptions.HardlyDecreases (o : StoppingOptions R) (before after : Iterate R n) : Prop :=
  o.relTol.Positive ∧
    (o.relTol.scaled <|
      Scalar.larger (Scalar.abs (before.penaltyAt after.mu)) Scalar.epsilon).AtLeast
        (Scalar.abs (before.penaltyAt after.mu - after.penalty))

instance StoppingOptions.instDecidableHardlyDecreases (o : StoppingOptions R)
    (before after : Iterate R n) : Decidable (o.HardlyDecreases before after) :=
  inferInstanceAs (Decidable (_ ∧ _))

/-- The record at a position of a history passes the test of a verdict. -/
def StoppingOptions.Passes (o : StoppingOptions R) (history : Array (IterationRecord R n))
    (k : Nat) (verdict : Termination) : Prop :=
  ∃ record, history[k]? = some record ∧
    match verdict with
    | .converged =>
      record.iterate.isFeasible o.ineqTol o.eqTol = true ∧
        o.optTol.AtLeast record.stationarity.value
    | .targetReached =>
      record.iterate.isFeasible o.ineqTol o.eqTol = true ∧ o.target.AtLeast record.iterate.value
    | .relativeTolerance =>
      record.iterate.isFeasible o.ineqTol o.eqTol = true ∧ 0 < k ∧
        ∃ previous, history[k - 1]? = some previous ∧
          o.HardlyDecreases previous.iterate record.iterate
    | .maxIterations => o.maxIterations ≤ k
    | _ => False

/-- The verdict is the first one whose test the record passes. -/
def StoppingOptions.PassesFirst (o : StoppingOptions R) (history : Array (IterationRecord R n))
    (k : Nat) (verdict : Termination) : Prop :=
  o.Passes history k verdict ∧
    ∀ earlier ∈ Termination.verdicts.takeWhile (· ≠ verdict), ¬ o.Passes history k earlier

namespace StoppingOptions

variable {o : StoppingOptions R} {history : Array (IterationRecord R n)}
    {record : IterationRecord R n} {k : Nat} {verdict : Termination}

theorem mem_verdicts_of_passes (h : o.Passes history k verdict) :
    verdict ∈ Termination.verdicts := by
  obtain ⟨record, -, h⟩ := h
  cases verdict <;> first | decide | exact h.elim

/-- What is recorded later does not change the tests that a record passes. -/
theorem passes_push_iff (hk : k < history.size) :
    o.Passes (history.push record) k verdict ↔ o.Passes history k verdict := by
  have hat (j : Nat) (hj : j ≤ k) : (history.push record)[j]? = history[j]? :=
    Array.getElem?_push_lt (hj.trans_lt hk) ▸ (Array.getElem?_eq_getElem (hj.trans_lt hk)).symm
  rw [Passes, Passes, hat k le_rfl]
  cases verdict <;> simp only [hat (k - 1) (Nat.sub_le k 1)]

section Last

/-! The tests of the last record. -/

theorem passes_converged_iff : o.Passes (history.push record) history.size .converged ↔
    record.iterate.isFeasible o.ineqTol o.eqTol = true ∧
      o.optTol.AtLeast record.stationarity.value := by
  rw [Passes, Array.getElem?_push_size]
  simp

theorem passes_targetReached_iff : o.Passes (history.push record) history.size .targetReached ↔
    record.iterate.isFeasible o.ineqTol o.eqTol = true ∧ o.target.AtLeast record.iterate.value := by
  rw [Passes, Array.getElem?_push_size]
  simp

theorem passes_relativeTolerance_iff :
    o.Passes (history.push record) history.size .relativeTolerance ↔
      record.iterate.isFeasible o.ineqTol o.eqTol = true ∧
        ∃ previous, history.back? = some previous ∧
          o.HardlyDecreases previous.iterate record.iterate := by
  rw [Passes, Array.getElem?_push_size]
  simp only [Option.some.injEq, exists_eq_left']
  refine and_congr_right fun _ ↦ ?_
  rw [Array.back?_eq_getElem?]
  by_cases hsize : 0 < history.size
  · rw [Array.getElem?_push_lt (Nat.sub_one_lt hsize.ne'),
      Array.getElem?_eq_getElem (Nat.sub_one_lt hsize.ne')]
    simp only [hsize, true_and]
  · have hempty : history = #[] := Array.eq_empty_of_size_eq_zero (by omega)
    subst hempty
    simp

theorem passes_maxIterations_iff :
    o.Passes (history.push record) history.size .maxIterations ↔
      o.maxIterations ≤ history.size := by
  rw [Passes, Array.getElem?_push_size]
  simp

end Last

end StoppingOptions

/-! ## Verdicts at a stage -/

/-- What is known of a run before the current iterate is recorded: the iterations that are left, and
that the records so far have their places in the history and pass no test. -/
structure Progress.IsOpen (o : StoppingOptions R) (left : Nat) (p : Progress R n) : Prop where
  size_eq : p.history.size = p.iteration
  left_eq : left + p.iteration = o.maxIterations
  step_iff : p.step.isSome = true ↔ 0 < p.iteration
  places : ∀ k record, p.history[k]? = some record →
    record.iteration = k ∧ (record.step.isSome = true ↔ 0 < k)
  passes : ∀ k < p.iteration, ∀ verdict, ¬ o.Passes p.history k verdict

namespace RunContext

variable {run : RunContext σ R n} {a b : Stage σ R n}

/-- The test of a stage finds the first of three verdicts that the new record passes. -/
theorem test_cases (run : RunContext σ R n) (a : Stage σ R n) :
    let Passes := run.options.stopping.Passes (run.recorded a).history a.progress.history.size
    (run.test a = some .converged ∧ Passes .converged) ∨
      (¬ Passes .converged ∧ run.test a = some .targetReached ∧ Passes .targetReached) ∨
      (¬ Passes .converged ∧ ¬ Passes .targetReached ∧
        run.test a = some .relativeTolerance ∧ Passes .relativeTolerance) ∨
      (¬ Passes .converged ∧ ¬ Passes .targetReached ∧ ¬ Passes .relativeTolerance ∧
        run.test a = none) := by
  intro Passes
  have hconverged : Passes .converged ↔ _ := StoppingOptions.passes_converged_iff
  have htarget : Passes .targetReached ↔ _ := StoppingOptions.passes_targetReached_iff
  have hrelative : Passes .relativeTolerance ↔ _ := StoppingOptions.passes_relativeTolerance_iff
  rw [hconverged, htarget, hrelative, test, stoppingTest]
  have hany : (a.progress.history.back?.map (·.iterate)).any (fun p ↦
      decide (run.options.stopping.HardlyDecreases p a.progress.current)) = true ↔
        ∃ previous, a.progress.history.back? = some previous ∧
          run.options.stopping.HardlyDecreases previous.iterate a.progress.current := by
    cases a.progress.history.back? <;> simp
  dsimp only
  split_ifs with hfeasible hstationary hgood hhardly
  · exact .inl ⟨rfl, hfeasible, hstationary⟩
  · exact .inr (.inl ⟨fun h ↦ hstationary h.2, rfl, hfeasible, hgood⟩)
  · exact .inr (.inr (.inl ⟨fun h ↦ hstationary h.2, fun h ↦ hgood h.2, rfl, hfeasible,
      hany.1 hhardly⟩))
  · exact .inr (.inr (.inr ⟨fun h ↦ hstationary h.2, fun h ↦ hgood h.2,
      fun h ↦ hhardly (hany.2 h.2), rfl⟩))
  · exact .inr (.inr (.inr ⟨fun h ↦ hfeasible h.1, fun h ↦ hfeasible h.1,
      fun h ↦ hfeasible h.1, rfl⟩))

/-- **The verdict on a stage** is the first one whose test the new record passes. -/
theorem verdict_cases (ha : a.progress.IsOpen run.options.stopping a.left) :
    (∃ verdict, run.verdict a = some verdict ∧
        run.options.stopping.PassesFirst (run.recorded a).history a.progress.iteration verdict) ∨
      (run.verdict a = none ∧ ∀ verdict,
        ¬ run.options.stopping.Passes (run.recorded a).history a.progress.iteration verdict) := by
  have htests := run.test_cases a
  have hlimit : run.options.stopping.Passes (run.recorded a).history a.progress.history.size
      .maxIterations ↔ a.left = 0 := by
    have hsize := ha.size_eq
    have hleft := ha.left_eq
    rw [recorded, StoppingOptions.passes_maxIterations_iff]
    omega
  rw [ha.size_eq] at htests hlimit
  dsimp only at htests
  rw [verdict]
  rcases htests with ⟨htest, hpasses⟩ | ⟨hc, htest, hpasses⟩ | ⟨hc, ht, htest, hpasses⟩ |
    ⟨hc, ht, hr, htest⟩ <;> rw [htest]
  · exact .inl ⟨_, rfl, hpasses, by simp [Termination.verdicts]⟩
  · exact .inl ⟨_, rfl, hpasses, by simp [Termination.verdicts, hc]⟩
  · exact .inl ⟨_, rfl, hpasses, by simp [Termination.verdicts, hc, ht]⟩
  · dsimp only
    split_ifs with hleft
    · exact .inl ⟨_, rfl, hlimit.2 hleft, by simp [Termination.verdicts, hc, ht, hr]⟩
    · refine .inr ⟨rfl, fun verdict hpasses ↦ ?_⟩
      have hmem := StoppingOptions.mem_verdicts_of_passes hpasses
      simp only [Termination.verdicts, List.mem_cons, List.not_mem_nil, or_false] at hmem
      rcases hmem with rfl | rfl | rfl | rfl
      · exact hc hpasses
      · exact ht hpasses
      · exact hr hpasses
      · exact hleft (hlimit.1 hpasses)

section Recorded

variable (ha : a.progress.IsOpen run.options.stopping a.left)
include ha

theorem size_recorded : (run.recorded a).history.size = a.progress.iteration + 1 :=
  Array.size_push _ |>.trans (congrArg (· + 1) ha.size_eq)

theorem places_recorded {k : Nat} {record : IterationRecord R n}
    (hk : (run.recorded a).history[k]? = some record) :
    record.iteration = k ∧ (record.step.isSome = true ↔ 0 < k) := by
  change (a.progress.history.push (run.record a))[k]? = some record at hk
  rw [Array.getElem?_push] at hk
  split_ifs at hk with hlast
  · cases hk
    subst hlast
    rw [ha.size_eq]
    exact ⟨rfl, ha.step_iff⟩
  · exact ha.places k record hk

theorem not_passes_recorded {k : Nat} (hk : k < a.progress.iteration) (verdict : Termination) :
    ¬ run.options.stopping.Passes (run.recorded a).history k verdict := by
  show ¬ run.options.stopping.Passes (a.progress.history.push (run.record a)) k verdict
  rw [StoppingOptions.passes_push_iff (ha.size_eq.symm ▸ hk)]
  exact ha.passes k hk verdict

/-- The next stage knows what the stage before it knew, and of one record more. -/
theorem isOpen_iterateOnce (h : run.iterateOnce a = .inl b) :
    b.progress.IsOpen run.options.stopping b.left := by
  have hverdict := verdict_of_iterateOnce h
  obtain ⟨move, μ, s, hleft, -, rfl⟩ := exists_move h
  obtain ⟨verdict, hsome, -⟩ | ⟨-, hpasses⟩ := verdict_cases ha
  · exact absurd (hverdict.symm.trans hsome) (nomatch ·)
  refine ⟨size_recorded ha, ?_, iff_of_true rfl (Nat.succ_pos _),
    fun k record hk ↦ places_recorded ha hk, fun k hk verdict ↦ ?_⟩
  · show a.left - 1 + (a.progress.iteration + 1) = _
    rw [← ha.left_eq]
    omega
  · rcases Nat.lt_succ_iff_lt_or_eq.1 hk with hlt | rfl
    · exact not_passes_recorded ha hlt verdict
    · exact hpasses verdict

end Recorded

theorem isOpen_initial (env : Environment σ R n) (options : Options R) (first : Observation R n)
    (world : σ) : (Stage.initial env options first world).progress.IsOpen options.stopping
      (Stage.initial env options first world).left where
  size_eq := rfl
  left_eq := rfl
  step_iff := by simp [Stage.initial, Progress.start]
  places k record h := by simp [Stage.initial, Progress.start] at h
  passes k hk := absurd hk (Nat.not_lt_zero k)

end RunContext

/-! ## Whole runs -/

variable {env : Environment σ R n} {options : Options R} {x₀ : Vector R n} {world : σ}
    {r : RunResult R n} {s : Session σ R n}

/-- **A run stops at the first record that passes a test.**  The history has one record for each
iterate, in order, and only the last one may pass a test.  If it does, the run ends with the first
verdict whose test it passes, and with that very iterate; if not, the run ends for another reason,
at the same iterate up to its penalty parameter. -/
theorem history_stops_at_verdict (hrun : minimize env options x₀ world = (.ok r, s)) :
    r.history.size = r.iterations + 1 ∧
    r.iterations ≤ options.stopping.maxIterations ∧
    (∀ k record, r.history[k]? = some record →
      record.iteration = k ∧ (record.step.isSome = true ↔ 1 ≤ k)) ∧
    (∃ last, r.history.back? = some last ∧ r.stationarity = last.stationarity ∧
      r.final = last.iterate.reweighed r.final.mu ∧
      (r.termination ∈ Termination.verdicts → r.final = last.iterate)) ∧
    (∀ k < r.iterations, ∀ verdict, ¬ options.stopping.Passes r.history k verdict) ∧
    (r.termination ∈ Termination.verdicts ↔
      ∃ verdict, options.stopping.Passes r.history r.iterations verdict) ∧
    (r.termination ∈ Termination.verdicts →
      options.stopping.PassesFirst r.history r.iterations r.termination) := by
  obtain ⟨-, -, first, as, -, -, -, hpath⟩ := minimize_eq_ok hrun
  obtain ⟨a, ha, hlast⟩ := Ends.exists_last ⟨as, hpath⟩
    (fun _ _ h ha ↦ RunContext.isOpen_iterateOnce ha h)
    (RunContext.isOpen_initial env options first world)
  have hverdict := RunContext.verdict_cases ha
  obtain ⟨hiterations, hhistory, hstationarity, hfinal, -⟩ :=
    RunContext.result_of_iterateOnce hlast
  rw [hiterations, hhistory]
  have hended := RunContext.iterateOnce_eq_inr hlast
  refine ⟨RunContext.size_recorded ha, ha.left_eq ▸ Nat.le_add_left _ _,
    fun k record hk ↦ RunContext.places_recorded ha hk, ⟨_, Array.back?_push, hstationarity, hfinal,
      fun hmem ↦ ?_⟩, fun k hk ↦ RunContext.not_passes_recorded ha hk, ?_⟩
  · obtain ⟨-, -, hr⟩ | ⟨hnot, -, -⟩ := hended
    · exact congrArg (·.1.final) hr
    · exact absurd hmem hnot
  · obtain ⟨hmem, hsome, -⟩ | ⟨hnot, hnone, -⟩ := hended <;>
      obtain ⟨verdict, hsome', hfirst⟩ | ⟨hnone', hpasses⟩ := hverdict
    · have htermination : r.termination = verdict := Option.some.inj (hsome.symm.trans hsome')
      rw [htermination] at hmem ⊢
      exact ⟨iff_of_true hmem ⟨_, hfirst.1⟩, fun _ ↦ hfirst⟩
    · cases hsome.symm.trans hnone'
    · cases hnone.symm.trans hsome'
    · exact ⟨iff_of_false hnot fun ⟨verdict, h⟩ ↦ hpasses verdict h, fun hmem ↦ absurd hmem hnot⟩

/-- A run down the parabola goes on from its starting point, which passes no test. -/
theorem history_stops_at_verdict_parabola :
    ∃ r s, minimize parabola .standard (.replicate 1 1) () = (.ok r, s) ∧
      r.history.size = r.iterations + 1 ∧ 1 ≤ r.iterations ∧
      ∀ verdict, ¬ (Options.standard : Options ℝ).stopping.Passes r.history 0 verdict := by
  obtain ⟨r, s, hrun, hlength⟩ := exists_minimize_parabola_two_le
  obtain ⟨hsize, -, -, -, hbefore, -, -⟩ := history_stops_at_verdict hrun
  rw [Array.length_toList, hsize] at hlength
  have hiterations : 1 ≤ r.iterations := Nat.le_of_succ_le_succ hlength
  exact ⟨r, s, hrun, hsize, hiterations, hbefore 0 hiterations⟩

end ExactPenalty
