import ExactPenalty.Proofs.Run.Iterations
import ExactPenalty.Proofs.Run.Session
import ExactPenalty.Proofs.Search.Lookups

/-!
# Why a run ends

There are three kinds of reasons: the verdict on the last recorded iterate, a limit on what the run
may consume, and the failure of every rung of the ladder.  `RunContext.iterateOnce_eq_inr` says that
no reason is of two kinds, and that a limit is given as the reason only where it is reached.
-/

set_option autoImplicit false

namespace ExactPenalty

open Session ExactPenalty.Action

variable {σ R : Type} [Scalar R] {n : Nat}

namespace Termination

/-- The verdicts on a recorded iterate, in the order in which they are looked for. -/
def verdicts : List Termination := [converged, targetReached, relativeTolerance, maxIterations]

theorem not_mem_verdicts_of_isTotalFailure {t : Termination} (h : t.isTotalFailure = true) :
    t ∉ verdicts := by
  cases t <;> first | decide | cases h

end Termination

theorem ClimbFailure.isTotalFailure_termination (failure : ClimbFailure) (feasible : Bool) :
    (failure.termination feasible).isTotalFailure = true := by
  cases failure with
  | unacceptable => cases feasible <;> rfl
  | qp => rfl
  | noDescent => rfl
  | unbounded => rfl

namespace IterationContext

variable {it : IterationContext σ R n} {c c' : Climb R n} {d : Direction R n}
    {s s' : Session σ R n} {μ μ' : R} {reason : Termination}

/-- A search that was stopped has met a limit. -/
theorem exhausted?_of_searchAlong {e : SearchError R n}
    (h : it.searchAlong c d s = ((.error e, c'), s')) (hreason : e.reason = .budgetExhausted) :
    it.exhausted? s' = some (it.stopReason s') := by
  obtain ⟨-, s₁, s₂, hsearch, rfl, -⟩ := searchAlong_eq h
  rcases lineSearch_eq_error hsearch with ⟨-, x, s₃, hlook⟩ | ⟨hne, -⟩
  · have hstopped := RunContext.exhausted?_of_lookUp_stopped hlook
    exact hstopped
  · exact absurd hreason hne

theorem exhausted?_of_climbFrom_stopped {ladder : Ladder}
    (h : it.climbFrom ladder c s = ((.stopped reason, c'), s')) :
    it.exhausted? s' = some reason := by
  obtain ⟨a, s₁, -, hattempt, ⟨⟨f, hf⟩, -⟩ | ⟨-, rfl⟩⟩ :=
    exists_last_attempt (P := fun _ ↦ True) (fun _ _ _ _ ↦ trivial) trivial h
  · cases hf
  · cases hattempt with
    | stopped _ hs hreason => exact exhausted?_of_searchAlong hs hreason

/-- **Why an iteration makes no step.**  A limit is reached, or else the reason is that of the
climb, which has failed. -/
theorem reason_of_run_eq_error (h : it.run μ s = ((.error reason, μ'), s')) :
    it.exhausted? s' = some reason ∨
      ∃ failure c s₁, it.climbFrom (.start it.options.ladder it.engaged) (.start μ) s
          = ((.failed failure, c), s₁) ∧ μ' = c.mu ∧
        reason = failure.termination (it.observation.isFeasible it.options.stopping.ineqTol
          it.options.stopping.eqTol) := by
  obtain ⟨c, hμ', hclimb | ⟨failure, s₁, hclimb, ⟨-, -, hreason⟩ | ⟨-, hforce⟩⟩⟩ := run_eq_error h
  · exact .inl (exhausted?_of_climbFrom_stopped hclimb)
  · exact .inr ⟨failure, c, s₁, hclimb, hμ', hreason⟩
  · rcases force_eq_error hforce with
      ⟨hreason, -, -⟩ | ⟨_, _, -, -, hlook, ⟨-, hreason⟩ | ⟨rfl, hreason⟩⟩
    · exact .inr ⟨failure, c, s₁, hclimb, hμ', hreason⟩
    · exact .inr ⟨failure, c, s₁, hclimb, hμ', hreason⟩
    · exact .inl (hreason ▸ RunContext.exhausted?_of_lookUp_stopped hlook)

end IterationContext

namespace RunContext

variable {run : RunContext σ R n} {a b : Stage σ R n}

/-- The verdict on the iterate of a stage: a test that it passes, or that no iteration may
follow. -/
def verdict (run : RunContext σ R n) (a : Stage σ R n) : Option Termination :=
  match run.test a with
  | some reason => some reason
  | none => if a.left = 0 then some .maxIterations else none

theorem verdict_eq_none_iff : run.verdict a = none ↔ run.test a = none ∧ a.left ≠ 0 := by
  rw [verdict]
  cases run.test a with
  | some reason => exact iff_of_false (nomatch ·) fun h ↦ nomatch h.1
  | none => simp

theorem mem_verdicts_of_verdict {reason : Termination} (h : run.verdict a = some reason) :
    reason ∈ Termination.verdicts := by
  rw [verdict] at h
  cases htest : run.test a with
  | none =>
    rw [htest] at h
    dsimp only at h
    split_ifs at h
    cases h
    decide
  | some reason' =>
    rw [htest] at h
    cases h
    rw [test, stoppingTest] at htest
    dsimp only at htest
    split_ifs at htest <;> cases htest <;> decide

omit [Scalar R] in
theorem not_mem_verdicts_of_exhausted? {s : Session σ R n} {reason : Termination}
    (h : run.exhausted? s = some reason) : reason ∉ Termination.verdicts := by
  rcases exhausted?_eq_some h with rfl | ⟨rfl, -⟩ <;> decide

/-- A run goes on only from an iterate without a verdict. -/
theorem verdict_of_iterateOnce (h : run.iterateOnce a = .inl b) : run.verdict a = none := by
  have hiteration := run.iteration_iterateOnce a
  rw [h] at hiteration
  cases hiteration with
  | moved htest hleft => exact verdict_eq_none_iff.2 ⟨htest, hleft⟩

/-- What a run yields is read off the stage it ends at, but for the penalty parameter. -/
theorem result_of_iterateOnce {r : RunResult R n} {s : Session σ R n}
    (h : run.iterateOnce a = .inr (r, s)) :
    r.iterations = a.progress.iteration ∧ r.history = (run.recorded a).history ∧
      r.stationarity = (run.record a).stationarity ∧
      r.final = a.progress.current.reweighed r.final.mu ∧ r.evaluations = s.evaluations := by
  obtain ⟨μ, reason, s', hr⟩ := exists_ending h
  cases hr
  exact ⟨rfl, rfl, rfl, rfl, rfl⟩

/-- **Why a run ends.**  It ends with the verdict on the iterate, if there is one, right after the
iterate was recorded.  Otherwise a limit is reached, or the climb has failed. -/
theorem iterateOnce_eq_inr {r : RunResult R n × Session σ R n} (h : run.iterateOnce a = .inr r) :
    (r.1.termination ∈ Termination.verdicts ∧ run.verdict a = some r.1.termination ∧
        r = run.ending a a.progress.current.mu r.1.termination (run.entered a)) ∨
      (r.1.termination ∉ Termination.verdicts ∧ run.verdict a = none ∧
        (run.exhausted? r.2 = some r.1.termination ∨ r.1.termination.isTotalFailure = true)) := by
  have hiteration := run.iteration_iterateOnce a
  rw [h] at hiteration
  cases hiteration with
  | @tested reason htest =>
    have hverdict : run.verdict a = some reason := by rw [verdict, htest]
    exact .inl ⟨mem_verdicts_of_verdict hverdict, hverdict, rfl⟩
  | spent htest hleft =>
    have hverdict : run.verdict a = some .maxIterations := by
      rw [verdict, htest]
      exact if_pos hleft
    exact .inl ⟨mem_verdicts_of_verdict hverdict, hverdict, rfl⟩
  | exhausted htest hleft hexhausted =>
    exact .inr ⟨not_mem_verdicts_of_exhausted? hexhausted, verdict_eq_none_iff.2 ⟨htest, hleft⟩,
      .inl hexhausted⟩
  | @failed reason μ s htest hleft _ hrun =>
    have hverdict : run.verdict a = none := verdict_eq_none_iff.2 ⟨htest, hleft⟩
    rcases IterationContext.reason_of_run_eq_error hrun with hexhausted | ⟨failure, _, _, -, -, hr⟩
    · exact .inr ⟨not_mem_verdicts_of_exhausted? hexhausted, hverdict, .inl hexhausted⟩
    · have htotal : reason.isTotalFailure = true := hr ▸ failure.isTotalFailure_termination _
      exact .inr ⟨Termination.not_mem_verdicts_of_isTotalFailure htotal, hverdict, .inr htotal⟩

/-- A run that ends because every rung has failed ends in the climb of an iterate that passes no
test. -/
theorem exists_run_of_isTotalFailure {r : RunResult R n × Session σ R n}
    (h : run.iterateOnce a = .inr r) (htotal : r.1.termination.isTotalFailure = true) :
    run.test a = none ∧ a.left ≠ 0 ∧ run.exhausted? (run.entered a) = none ∧
      ∃ s, (run.climber a).run a.progress.current.mu (run.entered a)
          = ((.error r.1.termination, r.1.final.mu), s) ∧
        r = run.ending a r.1.final.mu r.1.termination s := by
  have hiteration := run.iteration_iterateOnce a
  rw [h] at hiteration
  cases hiteration with
  | @tested reason htest =>
    have hverdict : run.verdict a = some reason := by rw [verdict, htest]
    exact absurd (mem_verdicts_of_verdict hverdict)
      (Termination.not_mem_verdicts_of_isTotalFailure htotal)
  | spent => cases htotal
  | exhausted _ _ hexhausted =>
    rcases exhausted?_eq_some hexhausted with rfl | ⟨rfl, -⟩ <;> cases htotal
  | failed htest hleft hexhausted hrun => exact ⟨htest, hleft, hexhausted, _, hrun, rfl⟩

/-- A run that ends for want of evaluations has used up a limit. -/
theorem exists_limit_of_iterateOnce {r : RunResult R n × Session σ R n}
    (h : run.iterateOnce a = .inr r) (hreason : r.1.termination = .evaluationLimit) :
    ∃ limit, run.options.budget.evaluations = some limit ∧ limit ≤ r.2.evaluations := by
  obtain ⟨hmem, -, -⟩ | ⟨-, -, hended⟩ := iterateOnce_eq_inr h
  · rw [hreason] at hmem
    exact absurd hmem (by decide)
  · rw [hreason] at hended
    obtain hreached | htotal := hended
    · exact exists_limit_of_exhausted? hreached
    · exact absurd htotal (by decide)

end RunContext

end ExactPenalty
