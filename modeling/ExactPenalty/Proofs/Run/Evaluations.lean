import ExactPenalty.Proofs.Run.Decrease
import ExactPenalty.Proofs.Run.Endings
import ExactPenalty.Proofs.Run.Transcript

/-!
# Evaluations are counted

Evaluations are counted three times: by the session, by the searches and forced steps of an
iteration, and, if it likes, by the problem itself.  Here the three counts are compared.

* `Environment.CountsCalls` — a quantity in the world that counts the calls of the problem.
* `RunContext.Accounts` — from one session to a later one the counter, the transcript and every such
  quantity grow alike, and the counter does not pass its limit.  All that a run does respects this.
* `IterationContext.evaluations_of_run_eq_ok` — a move reports the evaluations of its iteration.
* `evaluations_are_counted` — what it comes to for a whole run.
-/

set_option autoImplicit false

namespace ExactPenalty

open Session ExactPenalty.Action

variable {σ R : Type} {n : Nat}

/-- A quantity in the world that counts how often the problem is evaluated. -/
structure Environment.CountsCalls (env : Environment σ R n) (calls : σ → Nat) : Prop where
  evaluate : ∀ x w, calls (env.evaluate x w).2 = calls w + 1
  solve : ∀ {m : Nat} (qp : QuadraticProgram R m) w, calls (env.solve qp w).2 = calls w

/-- An environment that counts its evaluations. -/
def Environment.counted (env : Environment σ R n) : Environment (σ × Nat) R n where
  evaluate x w := ((env.evaluate x w.1).1, (env.evaluate x w.1).2, w.2 + 1)
  solve qp w := ((env.solve qp w.1).1, (env.solve qp w.1).2, w.2)
  eigen := env.eigen
  elapsed w := env.elapsed w.1
  generator := env.generator

theorem Environment.countsCalls_counted (env : Environment σ R n) :
    env.counted.CountsCalls Prod.snd :=
  ⟨fun _ _ ↦ rfl, fun _ _ ↦ rfl⟩

/-- The evaluations in the transcript. -/
def Session.evaluated (s : Session σ R n) : Nat := s.transcript.toList.countP (·.isEvaluated)

theorem Session.evaluated_note (e : Event R n) (s : Session σ R n) :
    (note e s).2.evaluated = s.evaluated + if e.isEvaluated then 1 else 0 := by
  show (s.transcript.push e).toList.countP _ = _
  rw [Array.toList_push, List.countP_append, List.countP_singleton]
  rfl

/-! ## Sessions -/

/-- From the first session to the second all counts grow alike, and the counter does not pass its
limit. -/
structure RunContext.Accounts (run : RunContext σ R n) (s s' : Session σ R n) : Prop where
  evaluated : s'.evaluated + s.evaluations = s.evaluated + s'.evaluations
  calls : ∀ calls, run.env.CountsCalls calls →
    calls s'.world + s.evaluations = calls s.world + s'.evaluations
  le : s.evaluations ≤ s'.evaluations
  limit : ∀ limit, run.options.budget.evaluations = some limit →
    s'.evaluations ≤ max s.evaluations limit

namespace RunContext.Accounts

variable {run : RunContext σ R n} {s s' : Session σ R n}

instance instIsPreorder : IsPreorder (Session σ R n) run.Accounts where
  refl s := ⟨rfl, fun _ _ ↦ rfl, le_rfl, fun limit _ ↦ le_max_left _ limit⟩
  trans s₁ s₂ s₃ h₁ h₂ := by
    refine ⟨?_, fun calls hcalls ↦ ?_, h₁.le.trans h₂.le, fun limit hlimit ↦ ?_⟩
    · have := h₁.evaluated
      have := h₂.evaluated
      omega
    · have := h₁.calls calls hcalls
      have := h₂.calls calls hcalls
      omega
    · exact (h₂.limit limit hlimit).trans (max_le (h₁.limit limit hlimit) (le_max_right _ _))

/-- Where no count changes. -/
theorem of_eq (hevaluated : s'.evaluated = s.evaluated)
    (hevaluations : s'.evaluations = s.evaluations)
    (hcalls : ∀ calls, run.env.CountsCalls calls → calls s'.world = calls s.world) :
    run.Accounts s s' where
  evaluated := by rw [hevaluated, hevaluations]
  calls calls h := by rw [hcalls calls h, hevaluations]
  le := hevaluations.ge
  limit limit _ := hevaluations.symm ▸ le_max_left _ limit

theorem note {e : Event R n} (he : e.isEvaluated = false) : Leads run.Accounts (note e) :=
  fun s ↦ .of_eq (by rw [evaluated_note, he]; rfl) rfl fun _ _ ↦ rfl

theorem evaluate {x : Vector R n}
    (hbelow : BelowCap s.evaluations run.options.budget.evaluations) :
    run.Accounts s (evaluate run.env x s).2 := by
  refine ⟨?_, fun calls hcalls ↦ ?_, Nat.le_succ _, fun limit hlimit ↦ ?_⟩
  · show (Session.note (.evaluated x _) _).2.evaluated + _ = _
    rw [evaluated_note]
    show s.evaluated + 1 + s.evaluations = s.evaluated + (s.evaluations + 1)
    omega
  · show calls (run.env.evaluate x s.world).2 + _ = _ + (s.evaluations + 1)
    rw [hcalls.evaluate]
    omega
  · rw [hlimit] at hbelow
    exact le_max_of_le_right hbelow

end RunContext.Accounts

section Iterations

variable [Scalar R]

omit [Scalar R] in
/-- All that a run does respects its accounts. -/
theorem RunContext.respects_accounts (run : RunContext σ R n) : run.Respects run.Accounts where
  note _ he := .note he
  evaluate _ _ h := .evaluate (belowCap_of_exhausted?_eq_none h)
  solve qp s := .of_eq rfl rfl fun _ hcalls ↦ hcalls.solve qp s.world
  draw _ _ := .of_eq rfl rfl fun _ _ ↦ rfl

/-- All counts grow alike over a run. -/
theorem RunContext.accounts_of_path {run : RunContext σ R n} {a : Stage σ R n}
    {as : List (Stage σ R n)} {r : RunResult R n × Session σ R n}
    (hpath : Path run.iterateOnce (a :: as) r) {b : Stage σ R n} (hb : b ∈ a :: as) :
    run.Accounts a.session b.session ∧ run.Accounts b.session r.2 :=
  run.respects_accounts.rel_of_path hpath hb

/-! ## What an iteration reports -/

/-- A look-up costs what the session counts. -/
theorem RunContext.evaluations_lookUp (run : RunContext σ R n) (x : Vector R n)
    (s : Session σ R n) :
    (run.lookUp x s).2.evaluations = s.evaluations + (run.lookUp x s).1.cost := by
  rcases run.lookUp_cases x s with ⟨hlook, -⟩ | ⟨-, hne, hstate⟩
  · rw [hlook]
    rfl
  · have hcost : (run.lookUp x s).1.cost = 1 := by
      cases hanswer : (run.lookUp x s).1 with
      | stopped => exact absurd hanswer hne
      | evaluated o => rfl
      | rejected => rfl
    rw [hcost]
    rcases hstate with hstate | hstate <;> rw [hstate] <;> rfl

/-- The evaluations that an attempt, or a climb, reports with its end. -/
def Climb.evaluationsAt (c : Climb R n) : Option (ClimbEnd R n) → Nat
  | some (.moved move) => move.evaluations
  | _ => c.evaluations

namespace IterationContext

variable {it : IterationContext σ R n} {level : Level} {left : Nat} {c c' : Climb R n}
    {d : Direction R n} {s s₁ s' : Session σ R n} {μ μ' : R}

/-- Making a direction takes no evaluation. -/
theorem evaluations_makeDirection {result : Except (DirectionError R n) (Direction R n)}
    (h : it.makeDirection level μ s = (result, s')) : s'.evaluations = s.evaluations :=
  (congrArg (·.2.evaluations) h).symm

/-- The evaluations of a search are those that it reports. -/
theorem evaluations_searchAlong {result : SearchResult R n}
    (hd : it.makeDirection level c.mu s = (.ok d, s₁))
    (hs : it.searchAlong c d s₁ = ((result, c'), s')) :
    s'.evaluations = s.evaluations + result.evaluations ∧ c'.evaluations = c.evaluations := by
  obtain ⟨rfl, s₂, s₃, hsearch, rfl, hs₂⟩ := searchAlong_eq hs
  have hcount := (lookups_lineSearch it.lookUp (it.task (c.lowered d) d) it.options.search
    s₂).count_eq it.evaluations_lookUp
  rw [hsearch] at hcount
  have hstart : s₂.evaluations = s.evaluations := by
    rw [← evaluations_makeDirection hd]
    rcases hs₂ with rfl | rfl <;> rfl
  refine ⟨hcount.trans (congrArg (· + _) hstart), ?_⟩
  rw [Climb.lowered]
  split <;> rfl

/-- The evaluations of an attempt are those that it adds to what the climb reports. -/
theorem Attempted.evaluations_eq {e : Option (ClimbEnd R n)}
    (h : it.Attempted level left c s e c' s') :
    s'.evaluations + c.evaluations = s.evaluations + c'.evaluationsAt e := by
  have hsearched {e : SearchError R n} {d : Direction R n} {c' : Climb R n} {s₁ s₂ : Session σ R n}
      (hd : it.makeDirection level c.mu s = (.ok d, s₁))
      (hs : it.searchAlong c d s₁ = ((.error e, c'), s₂)) :
      s₂.evaluations + c.evaluations = s.evaluations + (c'.searched d e).evaluations := by
    obtain ⟨hs₂, hc'⟩ := evaluations_searchAlong hd hs
    show _ = s.evaluations + (c'.evaluations + e.evaluations)
    rw [hs₂, hc', SearchResult.evaluations]
    omega
  cases h with
  | qp hd => exact congrArg (· + c.evaluations) (evaluations_makeDirection hd)
  | nonDescent hd => exact congrArg (· + c.evaluations) (evaluations_makeDirection hd)
  | degenerate hd => exact congrArg (· + c.evaluations) (evaluations_makeDirection hd)
  | @moved d s₁ out c' s₂ hd hs =>
    obtain ⟨hs₂, hc'⟩ := evaluations_searchAlong hd hs
    show _ = s.evaluations + (c'.evaluations + out.evaluations)
    rw [hs₂, hc', SearchResult.evaluations]
    omega
  | stopped hd hs => exact hsearched hd hs
  | ascending hd hs => exact hsearched hd hs
  | unacceptable hd hs => exact hsearched hd hs
  | unbounded hd hs => exact hsearched hd hs
  | again hd hs =>
    have hagain := hsearched hd hs
    exact hagain

/-- The evaluations of a climb are those that it reports. -/
theorem evaluations_climbFrom {ladder : Ladder} {e : ClimbEnd R n}
    (h : it.climbFrom ladder c s = ((e, c'), s')) :
    s'.evaluations + c.evaluations = s.evaluations + c'.evaluationsAt (some e) := by
  have hround (a b : ClimbStage σ R n) (hab : it.climbRound a = .inl b)
      (ha : a.session.evaluations + c.evaluations = s.evaluations + a.climb.evaluations) :
      b.session.evaluations + c.evaluations = s.evaluations + b.climb.evaluations := by
    have hround := it.round_climbRound a
    rw [hab] at hround
    cases hround with
    | @again c' s' hattempt =>
      have hnext : _ = _ + c'.evaluations := hattempt.evaluations_eq
      dsimp only
      omega
    | @escalated f c' s' hattempt _ =>
      have hnext : _ = _ + c'.evaluations := hattempt.evaluations_eq
      show s'.evaluations + _ = _
      dsimp only
      omega
  obtain ⟨a, s₁, ha, hattempt, ⟨-, -, rfl⟩ | ⟨-, rfl⟩⟩ := exists_last_attempt (P := fun a ↦
    a.session.evaluations + c.evaluations = s.evaluations + a.climb.evaluations) hround rfl h
  · have hlast := hattempt.evaluations_eq
    show s₁.evaluations + _ = _
    omega
  · have hlast := hattempt.evaluations_eq
    omega

/-- **A move reports the evaluations of its iteration**, forced or not. -/
theorem evaluations_of_run_eq_ok {move : Move R n} (h : it.run μ s = ((.ok move, μ'), s')) :
    s'.evaluations = s.evaluations + move.evaluations := by
  obtain ⟨c, -, hclimb | ⟨failure, reason, s₁, hclimb, -, hforce⟩⟩ := run_eq_ok h
  · exact evaluations_climbFrom hclimb
  · have hfailed : s₁.evaluations = s.evaluations + c.evaluations := evaluations_climbFrom hclimb
    obtain ⟨d, -, ⟨trial, -, rfl, rfl⟩ | ⟨-, o, s₂, hlook, rfl, rfl⟩⟩ := force_eq_ok hforce
    · exact hfailed
    · have hcost := it.evaluations_lookUp
        (Linear.along it.observation.point d.vector it.options.search.initialStep) s₁
      rw [hlook, hfailed] at hcost
      exact hcost

end IterationContext

/-! ## Whole runs -/

/-- The evaluations of the step that led to the iterate. -/
def IterationRecord.evaluations (record : IterationRecord R n) : Nat :=
  record.step.elim 0 (·.evaluations)

namespace RunContext

variable {run : RunContext σ R n} {a b : Stage σ R n}

/-- The evaluations until an iterate is recorded: one for the starting point, and those of the steps
in the history. -/
def IsAccounted (run : RunContext σ R n) (a : Stage σ R n) : Prop :=
  a.session.evaluations = 1 + ((run.recorded a).history.toList.map (·.evaluations)).sum

theorem IsAccounted.iterateOnce (ha : run.IsAccounted a) (h : run.iterateOnce a = .inl b) :
    run.IsAccounted b := by
  obtain ⟨move, μ, s, -, hrun, rfl⟩ := exists_move h
  have hmove : s.evaluations = a.session.evaluations + move.evaluations := by
    rw [IterationContext.evaluations_of_run_eq_ok hrun]
    rfl
  have hhistory : (run.recorded (run.following a move μ s)).history.toList
      = (run.recorded a).history.toList ++ [run.record (run.following a move μ s)] :=
    Array.toList_push
  show s.evaluations = _
  rw [hmove, ha, hhistory, List.map_append, List.sum_append, Nat.add_assoc]
  rfl

/-- What is noted after the last record, with the evaluations that it adds. -/
theorem exists_events_entered {r : RunResult R n} {s : Session σ R n}
    (h : run.iterateOnce a = .inr (r, s)) :
    ∃ before after, s.transcript.toList = before ++ .recorded (run.record a) :: after ∧
      (∀ e ∈ after, e.isRecorded = false) ∧
      s.evaluations = a.session.evaluations + after.countP (·.isEvaluated) := by
  have haccounts : run.Accounts (run.entered a) _ := rel_entered
    ((Respects.iteration (run.climber a) run.respects_accounts).leads_run _)
    fun _ he ↦ .note (Event.isEvaluated_of_isRemark he)
  have hcontinues := run.continues_entered a
  rw [h, Sum.elim_inr] at haccounts hcontinues
  obtain ⟨raised, hentered⟩ := run.transcript_entered a
  obtain ⟨after, hafter, hrecorded⟩ := hcontinues
  refine ⟨a.session.transcript.toList ++ [.conditioned raised], after, ?_, hrecorded, ?_⟩
  · rw [hafter, hentered]
    simp
  · have hcount : s.evaluated = (run.entered a).evaluated + after.countP (·.isEvaluated) := by
      rw [evaluated, hafter, List.countP_append]
      rfl
    have hgrow : s.evaluated + (run.entered a).evaluations
        = (run.entered a).evaluated + s.evaluations := haccounts.evaluated
    have hsame : (run.entered a).evaluations = a.session.evaluations := rfl
    omega

theorem isAccounted_initial (env : Environment σ R n) (options : Options R)
    (first : Observation R n) (world : σ) :
    IsAccounted ⟨env, options, first.shape⟩ (.initial env options first world) := rfl

end RunContext

variable {env : Environment σ R n} {options : Options R} {x₀ : Vector R n} {world : σ}
    {r : RunResult R n} {s : Session σ R n}

/-- **A run counts its evaluations.**  The number that it reports is that of the evaluations in its
transcript, and of the calls of the problem.  It stays within the limit, if there is one that allows
the first evaluation, and meets it where the run ends for that reason.  It exceeds what the steps in
the history account for by the evaluations noted after the last record, of which there are none where
the run ends with a verdict. -/
theorem evaluations_are_counted (hrun : minimize env options x₀ world = (.ok r, s)) :
    r.evaluations = s.evaluated ∧
    (∀ calls, env.CountsCalls calls → calls s.world = calls world + r.evaluations) ∧
    (∀ limit, options.budget.evaluations = some limit → r.evaluations ≤ max 1 limit) ∧
    (r.termination = .evaluationLimit →
      ∃ limit, options.budget.evaluations = some limit ∧ r.evaluations = max 1 limit) ∧
    ∃ last before after, r.history.back? = some last ∧
      s.transcript.toList = before ++ .recorded last :: after ∧
      (∀ e ∈ after, e.isRecorded = false) ∧
      r.evaluations
        = 1 + (r.history.toList.map (·.evaluations)).sum + after.countP (·.isEvaluated) ∧
      (r.termination ∈ Termination.verdicts → after.countP (·.isEvaluated) = 0) := by
  obtain ⟨-, -, first, as, -, -, -, hpath⟩ := minimize_eq_ok hrun
  have haccounts : RunContext.Accounts _ (Stage.initial env options first world).session s :=
    (RunContext.accounts_of_path hpath List.mem_cons_self).2
  obtain ⟨hevaluated, hcalls, hle, hlimit⟩ := haccounts
  have hone : (Stage.initial env options first world).session.evaluations = 1 := rfl
  rw [hone] at hevaluated hcalls hle hlimit
  obtain ⟨a, ha, hlast⟩ := Ends.exists_last ⟨as, hpath⟩
    (fun _ _ h ha ↦ RunContext.IsAccounted.iterateOnce ha h)
    (RunContext.isAccounted_initial env options first world)
  obtain ⟨-, hhistory, -, -, hevaluations⟩ := RunContext.result_of_iterateOnce hlast
  obtain ⟨before, after, htranscript, hrecorded, hafter⟩ := RunContext.exists_events_entered hlast
  rw [hevaluations]
  refine ⟨?_, fun calls hcounts ↦ ?_, hlimit, fun hreason ↦ ?_, _, before, after, ?_, htranscript,
    hrecorded, ?_, fun hverdict ↦ ?_⟩
  · have hstart : (Stage.initial env options first world).session.evaluated = 1 := rfl
    omega
  · have hstart : calls (Stage.initial env options first world).session.world = calls world + 1 :=
      hcounts.evaluate first.point world
    have hcalled := hcalls calls hcounts
    omega
  · obtain ⟨limit, hbudget, hmet⟩ := RunContext.exists_limit_of_iterateOnce hlast hreason
    exact ⟨limit, hbudget, le_antisymm (hlimit limit hbudget) (max_le hle hmet)⟩
  · rw [hhistory]
    exact Array.back?_push
  · rw [hhistory, hafter]
    exact congrArg (· + _) ha
  · rcases RunContext.iterateOnce_eq_inr hlast with ⟨-, -, hr⟩ | ⟨hnot, -, -⟩
    · have hsame : s.evaluations = a.session.evaluations := congrArg (·.2.evaluations) hr
      omega
    · exact absurd hverdict hnot

end Iterations

/-- A run down the parabola searches for a step at least once, and every call of the problem is counted. -/
theorem evaluations_are_counted_parabola :
    ∃ r s, minimize parabola.counted .standard (.replicate 1 1) ((), 0) = (.ok r, s) ∧
      2 ≤ r.history.toList.length ∧ 2 ≤ r.evaluations ∧ r.evaluations = s.evaluated ∧
      s.world.2 = r.evaluations := by
  have hparabola : parabola.counted.IsParabola := fun _ _ ↦ rfl
  obtain ⟨r, s, b, as, hrun, hmove, hhistory⟩ := exists_minimize_of_isParabola hparabola ((), 0)
  obtain ⟨hevaluated, hcalls, -, -, _, _, _, -, -, -, hcount, -⟩ := evaluations_are_counted hrun
  obtain ⟨b', hmove', -, hone⟩ := exists_move_parabolaStart hparabola ((), 0)
  cases hmove.symm.trans hmove'
  have hstep : ((parabolaRun parabola.counted).record b).evaluations = 1 := by
    obtain ⟨step, hstep, hone⟩ := Option.map_eq_some_iff.1 hone
    show b.progress.step.elim 0 (·.evaluations) = 1
    rw [hstep, Option.elim_some, hone]
  have hworld : s.world.2 = r.evaluations :=
    (hcalls _ parabola.countsCalls_counted).trans (Nat.zero_add _)
  refine ⟨r, s, hrun, ?_, ?_, hevaluated, hworld⟩
  · rw [hhistory, List.length_map]
    exact Nat.le_add_left 2 as.length
  · rw [hcount, hhistory, List.map_map, List.map_cons, List.map_cons, List.sum_cons, List.sum_cons]
    simp only [Function.comp_apply, hstep]
    omega

end ExactPenalty
