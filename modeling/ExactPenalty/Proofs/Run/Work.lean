import ExactPenalty.Proofs.Ladder.Walk
import ExactPenalty.Proofs.Run.LastRung
import ExactPenalty.Proofs.Run.Segments
import ExactPenalty.Proofs.Run.StepRungs
import ExactPenalty.Proofs.Search.Calls
import ExactPenalty.Proofs.Solves

/-!
# How much work a run does

A climb makes one attempt for each visit to a rung and each of its reattempts, and the reattempts start
again with every visit.  `IterationContext.attemptsAhead` bounds the attempts that are still to come: for
every visit ahead the first attempt and all reattempts, and for the present visit the reattempts that are
left.  Each round uses up one of them (`attemptsAhead_lt`).

* `IterationContext.exists_attempts_run` — the attempts and searches of an iteration.
* `Session.Affords` — the quadratic programs solved from one session to a later one, measured by the
  records and the attempts on steering rungs in the transcript.
* `work_is_bounded` — the limits of a whole run.
-/

set_option autoImplicit false

namespace ExactPenalty

open Session ExactPenalty.Action

variable {σ R : Type} {n : Nat}

/-! ## Attempts and searches in a transcript -/

namespace Event

/-- A direction was computed, or it was tried to. -/
def isAttempted : Event R n → Bool
  | attempted _ => true
  | _ => false

/-- A line search was made. -/
def isSearched : Event R n → Bool
  | searched _ _ => true
  | _ => false

/-- A direction was computed on a steering rung. -/
def isOnSteeringRung : Event R n → Bool
  | attempted attempt => attempt.level.usesSteering
  | _ => false

/-- The event is neither an attempt nor a search. -/
def IsIdle (e : Event R n) : Prop := e.isAttempted = false ∧ e.isSearched = false

theorem IsTrial.isIdle {e : Event R n} (he : e.IsTrial) : e.IsIdle := by
  cases e <;> first | exact ⟨rfl, rfl⟩ | exact he.elim

theorem IsClosing.isIdle {e : Event R n} (he : e.IsClosing) : e.IsIdle := by
  cases e <;> first | exact ⟨rfl, rfl⟩ | exact he.elim

end Event

/-- Among some events there are so many attempts, and no more searches. -/
structure HasAttempts (attempts : Nat) (events : List (Event R n)) : Prop where
  attempted : events.countP (·.isAttempted) = attempts
  searched : events.countP (·.isSearched) ≤ attempts

namespace HasAttempts

variable {events more : List (Event R n)} {attempts attempts' : Nat}

theorem append (h : HasAttempts attempts events) (hmore : HasAttempts attempts' more) :
    HasAttempts (attempts + attempts') (events ++ more) where
  attempted := by rw [List.countP_append, h.attempted, hmore.attempted]
  searched := by
    rw [List.countP_append]
    exact Nat.add_le_add h.searched hmore.searched

theorem of_isIdle (h : ∀ e ∈ events, e.IsIdle) : HasAttempts 0 events where
  attempted := List.countP_eq_zero.2 fun e he ↦ by simp [(h e he).1]
  searched := Nat.le_of_eq (List.countP_eq_zero.2 fun e he ↦ by simp [(h e he).2])

end HasAttempts

variable [Scalar R]

/-! ## Climbs -/

namespace IterationContext

variable {it : IterationContext σ R n} {level : Level} {left : Nat} {c c' : Climb R n} {μ : R}
    {s s' s₀ : Session σ R n} {a b : ClimbStage σ R n}

/-- **An attempt computes one direction and makes one search at most.** -/
theorem Attempted.exists_attempts {e : Option (ClimbEnd R n)}
    (h : it.Attempted level left c s e c' s') :
    ∃ events, s'.transcript.toList = s.transcript.toList ++ events ∧ HasAttempts 1 events := by
  have hmade {result : Except (DirectionError R n) (Direction R n)} {s₁ : Session σ R n}
      (hd : it.makeDirection level c.mu s = (result, s₁)) :
      ∃ events, s₁.transcript.toList = s.transcript.toList ++ events ∧ HasAttempts 1 events := by
    obtain ⟨attempt, -, -, hevents⟩ := exists_attempt_of_makeDirection hd
    exact ⟨_, hevents, rfl, Nat.zero_le _⟩
  have hsearched {d : Direction R n} {result : SearchResult R n} {c₁ : Climb R n}
      {s₁ s₂ : Session σ R n} (hd : it.makeDirection level c.mu s = (.ok d, s₁))
      (hs : it.searchAlong c d s₁ = ((result, c₁), s₂)) :
      ∃ events, s₂.transcript.toList = s.transcript.toList ++ events ∧ HasAttempts 1 events := by
    obtain ⟨attempt, -, trials, lookups, hevents, htrials, -⟩ := exists_events_of_searchAlong hd hs
    have hidle : HasAttempts 0 lookups :=
      .of_isIdle fun x hx ↦ (htrials.isTrial x hx).isIdle
    refine ⟨_, hevents, ?_, ?_⟩
    · rw [List.countP_append, List.countP_cons, hidle.attempted]
      rfl
    · rw [List.countP_append, List.countP_cons, Nat.le_zero.1 hidle.searched]
      exact le_rfl
  cases h with
  | qp hd | nonDescent hd | degenerate hd => exact hmade hd
  | moved hd hs | stopped hd hs | ascending hd hs | unacceptable hd hs | unbounded hd hs =>
    exact hsearched hd hs
  | again hd hs =>
    obtain ⟨events, hevents, hattempts⟩ := hsearched hd hs
    refine ⟨_, (toList_note _ _).trans (by rw [hevents, List.append_assoc]), ?_⟩
    exact hattempts.append (.of_isIdle (List.forall_mem_singleton.2 ⟨rfl, rfl⟩))

/-- The attempts that may follow from a stage on, the one at the stage included. -/
def attemptsAhead (it : IterationContext σ R n) (a : ClimbStage σ R n) : Nat :=
  a.ladder.ahead.length * (1 + it.reattempts.limit) + a.left + 1

/-- A round uses up one of the attempts. -/
theorem attemptsAhead_lt (ho : it.options.ladder.IsProper)
    (ha : a.ladder.IsOn it.options.ladder it.engaged) (h : it.climbRound a = .inl b) :
    b.ladder.IsOn it.options.ladder it.engaged ∧ it.attemptsAhead b < it.attemptsAhead a := by
  have hround := it.round_climbRound a
  rw [h] at hround
  cases hround with
  | again hattempt =>
    have hleft : a.left ≠ 0 := by cases hattempt; assumption
    refine ⟨ha, ?_⟩
    simp only [attemptsAhead]
    omega
  | escalated _ hnext =>
    rcases ha.ahead_cases ho with ⟨hexhausted, -⟩ | ⟨-, hon, hahead⟩
    · exact absurd hexhausted hnext
    · refine ⟨hon, ?_⟩
      simp only [attemptsAhead]
      rw [hahead, List.length_cons, Nat.succ_mul]
      omega

/-- The attempts since a session, with those that may follow, keep to a limit. -/
def KeepsTo (it : IterationContext σ R n) (limit : Nat) (s₀ : Session σ R n) (a : ClimbStage σ R n) :
    Prop :=
  a.ladder.IsOn it.options.ladder it.engaged ∧
    ∃ events attempts, a.session.transcript.toList = s₀.transcript.toList ++ events ∧
      HasAttempts attempts events ∧ attempts + it.attemptsAhead a ≤ limit

theorem KeepsTo.climbRound {limit : Nat} (ho : it.options.ladder.IsProper)
    (ha : it.KeepsTo limit s₀ a) (h : it.climbRound a = .inl b) : it.KeepsTo limit s₀ b := by
  obtain ⟨hon, events, attempts, hevents, hattempts, hlimit⟩ := ha
  obtain ⟨hnext, hlt⟩ := attemptsAhead_lt ho hon h
  obtain ⟨more, hmore, hone⟩ : ∃ more, b.session.transcript.toList
      = a.session.transcript.toList ++ more ∧ HasAttempts 1 more := by
    have hround := it.round_climbRound a
    rw [h] at hround
    cases hround with
    | again hattempt => exact hattempt.exists_attempts
    | escalated hattempt _ =>
      obtain ⟨more, hmore, hone⟩ := hattempt.exists_attempts
      refine ⟨_, (toList_note _ _).trans (by rw [hmore, List.append_assoc]), ?_⟩
      exact hone.append (.of_isIdle (List.forall_mem_singleton.2 ⟨rfl, rfl⟩))
  exact ⟨hnext, events ++ more, _, by rw [hmore, hevents, List.append_assoc],
    hattempts.append hone, by omega⟩

/-- The attempts of a climb are no more than the visits of its ladder with their reattempts. -/
theorem exists_attempts_climbFrom (ho : it.options.ladder.IsProper) {e : ClimbEnd R n}
    (h : it.climbFrom (.start it.options.ladder it.engaged) (.start μ) s = ((e, c'), s')) :
    ∃ events attempts, s'.transcript.toList = s.transcript.toList ++ events ∧
      HasAttempts attempts events ∧
      attempts ≤ (it.options.ladder.positions it.engaged).length * (1 + it.reattempts.limit) := by
  have hstart : it.KeepsTo ((it.options.ladder.positions it.engaged).length * (1 + it.reattempts.limit))
      s ⟨.start it.options.ladder it.engaged, it.reattempts.limit, .start μ, s⟩ := by
    refine ⟨Ladder.isOn_start ho it.engaged, [], 0, (List.append_nil _).symm, .of_isIdle
      (List.forall_mem_nil _), ?_⟩
    rw [Ladder.positions_eq ho, List.length_cons, Nat.succ_mul, attemptsAhead]
    dsimp only
    omega
  obtain ⟨a, s₁, ⟨-, events, attempts, hevents, hattempts, hlimit⟩, hattempt, hend⟩ :=
    exists_last_attempt (fun _ _ hab ha ↦ ha.climbRound ho hab) hstart h
  obtain ⟨more, hmore, hone⟩ := hattempt.exists_attempts
  have hle : attempts + 1
      ≤ (it.options.ladder.positions it.engaged).length * (1 + it.reattempts.limit) := by
    rw [attemptsAhead] at hlimit
    omega
  have hall := hattempts.append hone
  rcases hend with ⟨-, -, rfl⟩ | ⟨-, rfl⟩
  · have hfailed : HasAttempts (R := R) (n := n) 0 [.failed a.ladder a.ladder.next] :=
      .of_isIdle (List.forall_mem_singleton.2 ⟨rfl, rfl⟩)
    refine ⟨events ++ more ++ [.failed a.ladder a.ladder.next], _, ?_, hall.append hfailed, hle⟩
    rw [toList_note, hmore, hevents]
    simp
  · exact ⟨events ++ more, _, by rw [hmore, hevents, List.append_assoc], hall, hle⟩

/-- **The attempts of an iteration** are those of its climb: none is made to force a step. -/
theorem exists_attempts_run (ho : it.options.ladder.IsProper)
    {answer : Except Termination (Move R n) × R} (h : it.run μ s = (answer, s')) :
    ∃ events attempts, s'.transcript.toList = s.transcript.toList ++ events ∧
      HasAttempts attempts events ∧
      attempts ≤ (it.options.ladder.positions it.engaged).length * (1 + it.reattempts.limit) := by
  have hforce (c : Climb R n) (reason : Termination) :
      Leads (Session.Continues Event.IsIdle) (it.force c reason) :=
    it.leads_force_of (.note ⟨rfl, rfl⟩) (fun _ _ ↦ .note ⟨rfl, rfl⟩)
      (fun _ ↦ it.continues_lookUp (fun _ ↦ ⟨rfl, rfl⟩) ⟨rfl, rfl⟩) c reason
  obtain ⟨⟨e, c⟩, s₁, hclimb, rest, hrest, hidle⟩ := exists_climb_of_run hforce h
  obtain ⟨events, attempts, hevents, hattempts, hle⟩ := exists_attempts_climbFrom ho hclimb
  refine ⟨events ++ rest, attempts, by rw [hrest, hevents, List.append_assoc], ?_, hle⟩
  exact hattempts.append (.of_isIdle hidle)

end IterationContext

/-! ## Iterations -/

namespace RunContext

variable {run : RunContext σ R n} {a b : Stage σ R n} {as : List (Stage σ R n)}
    {r : RunResult R n × Session σ R n} {events : List (Event R n)}

/-- An iteration that ends the run before the climb notes nothing but the end. -/
theorem Noted.isClosing (h : run.Noted a (run.iterateOnce a) events)
    (hended : run.test a ≠ none ∨ a.left = 0 ∨ run.exhausted? (run.entered a) ≠ none) :
    ∀ e ∈ events, e.IsClosing := by
  obtain ⟨reason, hresult⟩ : ∃ reason, run.iterateOnce a
      = .inr (run.ending a a.progress.current.mu reason (run.entered a)) := by
    have hiteration := run.iteration_iterateOnce a
    rcases hnext : run.iterateOnce a with b | r <;> rw [hnext] at hiteration
    · cases hiteration with
      | moved htest hleft hexhausted _ => simp [htest, hleft, hexhausted] at hended
    · cases hiteration with
      | tested _ | spent _ _ | exhausted _ _ _ => exact ⟨_, rfl⟩
      | failed htest hleft hexhausted _ => simp [htest, hleft, hexhausted] at hended
  generalize hnext : run.iterateOnce a = next at h
  rw [hresult] at hnext
  cases h with
  | ended _ hclosing => exact hclosing
  | @failed reason' μ s climb closing _ hclimb hclosing =>
    have hsize : (run.entered a).transcript.size + 1 = s.transcript.size + 1 := by
      rw [← Array.size_push, ← Array.size_push]
      exact congrArg (fun r ↦ r.2.transcript.size) (Sum.inr.inj hnext)
    have hlength := congrArg List.length hclimb
    rw [List.length_append, Array.length_toList, Array.length_toList] at hlength
    rw [List.eq_nil_of_length_eq_zero (by omega : climb.length = 0), List.nil_append]
    exact hclosing
  | moved => cases hnext

/-- The attempts that an iteration notes are no more than the visits of its ladder with their
reattempts, and there are none unless an iteration may follow. -/
theorem Noted.exists_attempts (ho : run.options.ladder.IsProper)
    (h : run.Noted a (run.iterateOnce a) events) :
    ∃ attempts, HasAttempts attempts events ∧ (attempts ≠ 0 → a.left ≠ 0) ∧
      attempts ≤ (run.options.ladder.positions (run.climber a).engaged).length
        * (1 + (run.climber a).reattempts.limit) := by
  have hidle (hclosing : ∀ e ∈ events, e.IsClosing) : HasAttempts 0 events :=
    .of_isIdle fun e he ↦ (hclosing e he).isIdle
  by_cases hended : run.test a ≠ none ∨ a.left = 0 ∨ run.exhausted? (run.entered a) ≠ none
  · exact ⟨0, hidle (h.isClosing hended), fun h ↦ absurd rfl h, Nat.zero_le _⟩
  · simp only [not_or, not_not] at hended
    obtain ⟨htest, hleft, hexhausted⟩ := hended
    obtain ⟨climb, closing, rfl, hclimb, hclosing⟩ := h.exists_climb htest hleft hexhausted rfl
    have hproper : (run.climber a).options.ladder.IsProper := ho
    obtain ⟨events, attempts, hevents, hattempts, hle⟩ := IterationContext.exists_attempts_run hproper
      (Prod.mk.eta : ((run.climber a).run a.progress.current.mu (run.entered a)) = _).symm
    obtain rfl := List.append_cancel_left (hclimb.symm.trans hevents)
    exact ⟨attempts, hattempts.append (.of_isIdle fun e he ↦ (hclosing e he).isIdle), fun _ ↦ hleft,
      hle⟩

/-- Together the iterations that were made and those that may follow are as many as the options
permit. -/
theorem left_add_iteration {env : Environment σ R n} {options : Options R} {first : Observation R n}
    {world : σ} (hpath : Path run.iterateOnce (.initial env options first world :: as) r) :
    ∀ b ∈ .initial env options first world :: as,
      b.left + b.progress.iteration = options.stopping.maxIterations := by
  refine hpath.forall_mem (P := fun b ↦ b.left + b.progress.iteration = _) (fun a b _ hab ha ↦ ?_) rfl
  obtain ⟨move, μ, s, hleft, -, rfl⟩ := exists_move hab
  show a.left - 1 + (a.progress.iteration + 1) = _
  omega

/-- The transcript of a run notes the records of its history. -/
theorem countP_isRecorded_of_path {env : Environment σ R n} {options : Options R}
    {first : Observation R n} {world : σ}
    (hpath : Path run.iterateOnce (.initial env options first world :: as) r) :
    r.2.transcript.toList.countP (·.isRecorded) = r.1.history.size := by
  have hround (a b : Stage σ R n) (_ : b ∈ as) (hab : run.iterateOnce a = .inl b)
      (ha : CountsRecords a ∧ a.progress.history.size = a.progress.iteration) :
      CountsRecords b ∧ b.progress.history.size = b.progress.iteration := by
    refine ⟨ha.1.iterateOnce hab, ?_⟩
    obtain ⟨move, μ, s, -, -, rfl⟩ := exists_move hab
    show (a.progress.history.push _).size = a.progress.iteration + 1
    rw [Array.size_push, ha.2]
  obtain ⟨b, hb, hlast⟩ := hpath.exists_last
  obtain ⟨hcounts, hsize⟩ := hpath.forall_mem hround ⟨rfl, rfl⟩ b hb
  obtain ⟨-, before, events, -, hrecorded, hevents⟩ := exists_last_record hlast
  obtain ⟨raised, hentered⟩ := run.transcript_entered b
  obtain ⟨μ, reason, s, rfl⟩ := exists_ending hlast
  have hnone : events.countP (·.isRecorded) = 0 :=
    List.countP_eq_zero.2 fun e he ↦ by simp [hrecorded e he]
  show _ = (b.progress.history.push _).size
  rw [hevents, hentered, List.countP_append, List.countP_append, hcounts, hnone, Array.size_push, hsize]
  rfl

end RunContext

/-! ## Quadratic programs -/

/-- A quantity in the world that counts the quadratic programs. -/
structure Environment.CountsSolves (env : Environment σ R n) (solves : σ → Nat) : Prop where
  solve : QpService.Counts env.solve solves
  evaluate : ∀ x w, solves (env.evaluate x w).2 = solves w

/-- An environment that counts its quadratic programs. -/
def Environment.countedSolves (env : Environment σ R n) : Environment (σ × Nat) R n where
  evaluate x w := ((env.evaluate x w.1).1, (env.evaluate x w.1).2, w.2)
  solve qp w := ((env.solve qp w.1).1, (env.solve qp w.1).2, w.2 + 1)
  eigen := env.eigen
  elapsed w := env.elapsed w.1
  generator := env.generator

omit [Scalar R] in
theorem Environment.countsSolves_countedSolves (env : Environment σ R n) :
    env.countedSolves.CountsSolves Prod.snd :=
  ⟨fun _ _ ↦ rfl, fun _ _ ↦ rfl⟩

/-- The programs that the events of a transcript may have taken: one for a record, and a number of them
for an attempt on a steering rung. -/
def Session.allotted (steering : Nat) (s : Session σ R n) : Nat :=
  s.transcript.toList.countP (·.isRecorded)
    + steering * s.transcript.toList.countP (·.isOnSteeringRung)

/-- From the first session to the second no more programs are solved than the new events may take. -/
def Session.Affords (solves : σ → Nat) (steering : Nat) (s s' : Session σ R n) : Prop :=
  solves s'.world + s.allotted steering ≤ solves s.world + s'.allotted steering

namespace Session.Affords

variable {solves : σ → Nat} {steering : Nat} {s s' : Session σ R n}

instance instIsPreorder : IsPreorder (Session σ R n) (Session.Affords solves steering) where
  refl s := Nat.le_refl _
  trans s₁ s₂ s₃ h₁ h₂ := by
    rw [Affords] at h₁ h₂ ⊢
    omega

omit [Scalar R] in
/-- An event that takes no more programs than it may. -/
theorem push {e : Event R n} (htranscript : s'.transcript = s.transcript.push e)
    (hsolves : solves s'.world ≤ solves s.world
      + ((if e.isRecorded then 1 else 0) + steering * if e.isOnSteeringRung then 1 else 0)) :
    Session.Affords solves steering s s' := by
  rw [Affords, allotted, allotted, htranscript, Array.toList_push, List.countP_append,
    List.countP_append, List.countP_singleton, List.countP_singleton, Nat.mul_add]
  omega

omit [Scalar R] in
theorem note (e : Event R n) : Leads (Session.Affords solves steering) (note e) :=
  fun _ ↦ .push rfl (Nat.le_add_right _ _)

omit [Scalar R] in
theorem evaluate {env : Environment σ R n} (hsolves : env.CountsSolves solves) (x : Vector R n) :
    Leads (Session.Affords solves steering) (evaluate env x) := fun s ↦
  .push (e := .evaluated x (env.evaluate x s.world).1) rfl
    ((hsolves.evaluate x s.world).trans_le (Nat.le_add_right _ _))

end Session.Affords

section Runs

variable {solves : σ → Nat}

/-- An attempt takes no more programs than are allotted to it. -/
theorem IterationContext.affords_makeDirection (it : IterationContext σ R n)
    (hsolves : it.env.CountsSolves solves) (level : Level) (μ : R) :
    Leads (Session.Affords solves (it.options.steering.maxShrinks + 2)) (it.makeDirection level μ) := by
  intro s
  have hcosts := DirectionContext.costs_attempt hsolves.solve it.toDirectionContext it.options level μ
    s.generator s.world
  have hlevel : (it.toDirectionContext.attempt it.env.solve it.options level μ s.generator
      s.world).1.1.level = level := DirectionContext.level_attempt
  refine .push (e := .attempted (it.toDirectionContext.attempt it.env.solve it.options level μ
    s.generator s.world).1.1) rfl (hcosts.trans (Nat.add_le_add_left ?_ _))
  rw [Event.isOnSteeringRung, hlevel]
  cases it.engaged <;> cases level.usesSteering <;> simp

theorem IterationContext.respects_affords (it : IterationContext σ R n)
    (hsolves : it.env.CountsSolves solves) :
    it.Respects (Session.Affords solves (it.options.steering.maxShrinks + 2)) where
  note e _ := .note e
  lookUp x := by
    intro s
    have hevaluate : Session.Affords solves (it.options.steering.maxShrinks + 2) s
        (evaluate it.env x s).2 := .evaluate hsolves x s
    rcases it.lookUp_cases x s with ⟨hlook, -⟩ | ⟨-, -, hlook | hlook⟩ <;> rw [hlook]
    · exact refl_of _ s
    · exact hevaluate
    · exact trans_of _ hevaluate (.note .misshapen _)
  makeDirection level μ := it.affords_makeDirection hsolves level μ

/-- A record takes one program at most. -/
theorem RunContext.affords_entered (run : RunContext σ R n) (hsolves : run.env.CountsSolves solves)
    (steering : Nat) (a : Stage σ R n) :
    Session.Affords solves steering a.session (run.entered a) := by
  have hmeasure := GradientBundle.costs_measure hsolves.solve a.progress.bundle a.progress.current
    (run.conditioned a) run.options.bundle.radius a.session.world
  let conditioned := condition run.env.eigen run.options.conditioning a.progress.curvature.matrix
  have hconditioned : Session.Affords solves steering a.session
      (note (.conditioned conditioned.raisedInstead) a.session).2 := .note _ _
  exact trans_of _ hconditioned (.push (e := .recorded (run.record a)) rfl hmeasure)

end Runs

/-! ## Whole runs -/

variable {env : Environment σ R n} {options : Options R} {x₀ : Vector R n} {world : σ}
    {r : RunResult R n} {s : Session σ R n}

/-- The programs that a run solves are allotted to the events of its transcript. -/
theorem RunContext.solves_le_of_path {run : RunContext σ R n} {first : Observation R n}
    {as : List (Stage σ R n)} {r : RunResult R n × Session σ R n} {solves : σ → Nat}
    (hsolves : run.env.CountsSolves solves)
    (hpath : Path run.iterateOnce (.initial run.env run.options first world :: as) r) :
    solves r.2.world ≤ solves world + (r.1.history.size + (run.options.steering.maxShrinks + 2)
      * r.2.transcript.toList.countP (·.isOnSteeringRung)) := by
  have hstages := hpath.rel (f := (·.session)) (g := (·.2)) (fun b _ ↦
    rel_iterateOnce (run.affords_entered hsolves (run.options.steering.maxShrinks + 2) b)
      (((run.climber b).respects_affords hsolves).leads_run _) fun e _ ↦ .note e)
    _ List.mem_cons_self
  have hinitial : solves (Stage.initial run.env run.options first world).session.world = solves world :=
    hsolves.evaluate first.point world
  have hafford := hstages.2
  rw [Session.Affords, hinitial, Session.allotted, Session.allotted, countP_isRecorded_of_path hpath]
    at hafford
  omega

/-- **The work of a run is bounded.**  An iteration computes no more directions, and makes no more
searches, than its ladder has visits, each with its reattempts, and no more iterations climb than the
options permit.  A direction on a steering rung takes two quadratic programs, and one for each time that
the weight may be shrunk, and no other direction takes any; a record takes one at most.  A search looks
no more points up than its limit says: for bracketing one more than the doublings and bisections, for
backtracking one more than the halvings, within the cap that the slope calls for. -/
theorem work_is_bounded (hrun : minimize env options x₀ world = (.ok r, s)) :
    (∀ (k : Nat) (record : IterationRecord R n), r.history[k]? = some record →
      let attempts := (options.ladder.positions
          (isEngaged record.iterate.toObservation options.steering.ineqMargin)).length
        * (1 + (if k = 0 then options.firstReattempts else options.reattempts).limit)
      (s.eventsOf k).countP (·.isAttempted) ≤ attempts ∧
        (s.eventsOf k).countP (·.isSearched) ≤ attempts) ∧
    (List.range r.history.size).countP (fun k ↦ (s.eventsOf k).any (·.isAttempted))
      ≤ options.stopping.maxIterations ∧
    (∀ solves, env.CountsSolves solves →
      (∀ (ctx : DirectionContext R n) level μ g,
        Costs solves (if ctx.engaged && level.usesSteering then options.steering.maxShrinks + 2 else 0)
          (ctx.attempt env.solve options level μ g)) ∧
      (∀ (bundle : GradientBundle R n) it h radius,
        Costs solves 1 (bundle.measure env.solve it h radius)) ∧
      solves s.world ≤ solves world + (r.history.size + (options.steering.maxShrinks + 2)
        * s.transcript.toList.countP (·.isOnSteeringRung))) ∧
    ∀ {τ : Type} (ask : Oracle τ R n) (calls : τ → Nat), ask.Counts calls → ∀ (task : SearchTask R n) t,
      calls (weakWolfe ask task options.search t).2
          ≤ calls t + task.bracketingLimit options.search ∧
        calls (backtracking ask task options.search t).2
          ≤ calls t + task.backtrackingLimit options.search := by
  obtain ⟨hoptions, -, first, as, -, -, -, hpath⟩ := minimize_eq_ok hrun
  have hiteration {k : Nat} {record : IterationRecord R n} (hk : r.history[k]? = some record) :
      ∃ attempts, HasAttempts attempts (s.eventsOf k) ∧
        (attempts ≠ 0 → k < options.stopping.maxIterations) ∧
        attempts ≤ (options.ladder.positions
            (isEngaged record.iterate.toObservation options.steering.ineqMargin)).length
          * (1 + (if k = 0 then options.firstReattempts else options.reattempts).limit) := by
    obtain ⟨b, hb, rfl, rfl, hnoted, -⟩ := RunContext.noted_eventsOf hpath hk
    obtain ⟨attempts, hattempts, hleft, hle⟩ := hnoted.exists_attempts hoptions.isProper
    refine ⟨attempts, hattempts, fun hne ↦ ?_, hle⟩
    have hsum := RunContext.left_add_iteration hpath b (List.mem_of_getElem? hb)
    have hpos := hleft hne
    omega
  refine ⟨fun k record hk ↦ ?_, ?_, fun solves hsolves ↦ ⟨?_, ?_, ?_⟩, ?_⟩
  · obtain ⟨attempts, hattempts, -, hle⟩ := hiteration hk
    exact ⟨hattempts.attempted.trans_le hle, hattempts.searched.trans hle⟩
  · rw [List.countP_eq_length_filter]
    have hsubset : (List.range r.history.size).filter (fun k ↦ (s.eventsOf k).any (·.isAttempted))
        ⊆ List.range options.stopping.maxIterations := by
      intro k hk
      rw [List.mem_filter, List.mem_range] at hk
      obtain ⟨attempts, hattempts, hlt, -⟩ := hiteration (Array.getElem?_eq_getElem hk.1)
      refine List.mem_range.2 (hlt fun hzero ↦ ?_)
      have hnone := List.countP_eq_zero.1 (hattempts.attempted.trans hzero)
      obtain ⟨e, he, htrue⟩ := List.any_eq_true.1 hk.2
      exact hnone e he htrue
    have hlength := (List.subperm_of_subset (List.nodup_range.filter _) hsubset).length_le
    rwa [List.length_range] at hlength
  · exact fun ctx level μ g ↦ ctx.costs_attempt hsolves.solve options level μ g
  · exact fun bundle it h radius ↦ bundle.costs_measure hsolves.solve it h radius
  · exact RunContext.solves_le_of_path hsolves hpath
  · exact fun ask calls hask task t ↦
      ⟨calls_weakWolfe_le hask task _ t, calls_backtracking_le hask task _ t⟩

/-- At the start of a run down the parabola two rungs may be visited, with thirty reattempts on each. -/
theorem work_is_bounded_parabola :
    ∃ r s, minimize parabola.countedSolves .standard (.replicate 1 1) ((), 0) = (.ok r, s) ∧
      (s.eventsOf 0).countP (·.isAttempted) ≤ 62 ∧
      s.world.2 ≤ r.history.size + 12 * s.transcript.toList.countP (·.isOnSteeringRung) ∧
      ∀ task : SearchTask ℝ 1,
        (weakWolfe (fun _ calls ↦ (.rejected, calls + 1)) task Options.standard.search 0).2
          ≤ task.bracketingLimit Options.standard.search := by
  obtain ⟨r, s, hrun⟩ : ∃ r s,
      minimize parabola.countedSolves .standard (.replicate 1 1) ((), 0) = (.ok r, s) :=
    exists_minimize_eq_ok Options.isValid_standard one_ne_zero (toObservation?_parabola _)
      (isFinite_parabolaAt _) (Linear.allFinite_real _)
  obtain ⟨-, -, first, as, hfirst, -, -, hpath⟩ := minimize_eq_ok hrun
  have hshape : first.shape = (0, 0) := Evaluation.shape_of_no_values hfirst rfl rfl
  obtain ⟨record, hrecord, hengaged⟩ : ∃ record, r.history[0]? = some record ∧
      isEngaged record.iterate.toObservation (Options.standard : Options ℝ).steering.ineqMargin
        = false := by
    exact ⟨_, RunContext.first_record hpath rfl, isEngaged_of_shape_eq_zero hshape _⟩
  obtain ⟨hattempts, -, hsolves, hcalls⟩ := work_is_bounded hrun
  have hfirstIteration := (hattempts 0 record hrecord).1
  rw [hengaged] at hfirstIteration
  have hprograms := (hsolves _ parabola.countsSolves_countedSolves).2.2
  refine ⟨r, s, hrun, hfirstIteration, ?_, fun task ↦ ?_⟩
  · exact hprograms.trans_eq (Nat.zero_add _)
  · exact ((hcalls _ id (fun _ _ ↦ rfl) task 0).1).trans_eq (Nat.zero_add _)

end ExactPenalty
