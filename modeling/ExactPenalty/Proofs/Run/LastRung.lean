import ExactPenalty.Proofs.Attempts
import ExactPenalty.Proofs.Run.Transcript
import ExactPenalty.Proofs.Search.Trials

/-!
# The last rung of a failed climb

A climb that fails reports the cause of its last failure.  Here this is read off the transcript.  The
events of a rung are those between two notes of failures, and the last of them shows why the rung
failed: an attempt without a direction, or a search without a step (`ClimbFailure.ShownBy`).

* `exists_trials_of_searchAlong` — the events of a search: its look-ups, whose answers are its trials.
* `Attempted.exists_events` — the events of one attempt.
* `IterationContext.OnRung` — the events of the present rung, with the reattempts made so far and those
  that are left.  Every round of a climb keeps this.
* `exists_lastRung` — what it says of the rung that a climb fails on, which is the highest permitted one.
-/

set_option autoImplicit false

namespace ExactPenalty

open Session ExactPenalty.Action

variable {σ R : Type} {n : Nat}

/-! ## Events -/

namespace Event

/-- A rung failed for good. -/
def isFailed : Event R n → Bool
  | failed _ _ => true
  | _ => false

/-- A rung is tried again. -/
def isReattempted : Event R n → Bool
  | reattempted _ _ _ _ => true
  | _ => false

/-- What a search notes before it ends. -/
def IsTrial : Event R n → Prop
  | lowered _ _ | evaluated _ _ | misshapen => True
  | _ => False

theorem isFailed_of_isTrial {e : Event R n} (he : e.IsTrial) : e.isFailed = false := by
  cases e <;> first | rfl | exact he.elim

theorem isReattempted_of_isTrial {e : Event R n} (he : e.IsTrial) : e.isReattempted = false := by
  cases e <;> first | rfl | exact he.elim

end Event

/-- The answer is of use at a point, with a penalty parameter, for a problem of a given shape: it passes
the screen, and value and gradient of the penalty function are finite. -/
def Evaluation.IsUsable [Scalar R] (answer : Evaluation R) (shape : Nat × Nat) (x : Vector R n)
    (μ : R) : Prop :=
  ∃ o, answer.screened shape x = .evaluated o ∧ (o.weighed μ).isUsable = true

/-- The observation that a look-up lets through. -/
def Lookup.observed? : Lookup R n → Option (Observation R n)
  | .evaluated o => some o
  | _ => none

/-- The observation that an event tells of: the answer of an evaluation, if it passes the screen. -/
def Event.observed? [Scalar R] (shape : Nat × Nat) : Event R n → Option (Observation R n)
  | evaluated x answer => (answer.screened shape x).observed?
  | _ => none

/-- The trials of a search along a ray are, in their order, the answers among its events that pass the
screen, each at the point of its step and weighed with the penalty parameter of the search. -/
structure HasTrials [Scalar R] (shape : Nat × Nat) (task : SearchTask R n) (trials : List (Trial R n))
    (lookups : List (Event R n)) : Prop where
  isTrial : ∀ e ∈ lookups, e.IsTrial
  observed : lookups.filterMap (·.observed? shape) = trials.map (·.iterate.toObservation)
  mu_eq : ∀ t ∈ trials, t.iterate.mu = task.mu
  point_eq : ∀ t ∈ trials, t.iterate.point = task.pointAt t.step

namespace HasTrials

variable [Scalar R] {shape : Nat × Nat} {task : SearchTask R n} {trials trials' : List (Trial R n)}
    {lookups lookups' : List (Event R n)}

theorem nil (hall : ∀ e ∈ lookups, e.IsTrial) (hnone : lookups.filterMap (·.observed? shape) = []) :
    HasTrials shape task [] lookups :=
  ⟨hall, hnone, List.forall_mem_nil _, List.forall_mem_nil _⟩

theorem append (h : HasTrials shape task trials lookups) (h' : HasTrials shape task trials' lookups') :
    HasTrials shape task (trials ++ trials') (lookups ++ lookups') where
  isTrial := List.forall_mem_append.2 ⟨h.isTrial, h'.isTrial⟩
  observed := by rw [List.filterMap_append, List.map_append, h.observed, h'.observed]
  mu_eq := List.forall_mem_append.2 ⟨h.mu_eq, h'.mu_eq⟩
  point_eq := List.forall_mem_append.2 ⟨h.point_eq, h'.point_eq⟩

/-- Where no trial is usable, no answer was of use. -/
theorem not_isUsable (h : HasTrials shape task trials lookups)
    (hnone : ∀ t ∈ trials, t.isUsable = false) {x : Vector R n} {answer : Evaluation R}
    (he : .evaluated x answer ∈ lookups) : ¬ answer.IsUsable shape x task.mu := by
  rintro ⟨o, ho, husable⟩
  have hobserved : (Event.evaluated x answer).observed? shape = some o := by
    rw [Event.observed?, ho, Lookup.observed?]
  have hmem : o ∈ trials.map (·.iterate.toObservation) :=
    h.observed ▸ List.mem_filterMap.2 ⟨_, he, hobserved⟩
  obtain ⟨t, ht, rfl⟩ := List.mem_map.1 hmem
  have hunusable : (t.iterate.toObservation.weighed t.iterate.mu).isUsable = false := hnone t ht
  rw [h.mu_eq t ht] at hunusable
  exact absurd (hunusable.symm.trans husable) Bool.false_ne_true

end HasTrials

/-- The event is the failure of an attempt, for the given cause. -/
def ClimbFailure.ShownBy : ClimbFailure → Event R n → Prop
  | qp, .attempted attempt => ∃ e, attempt.result = .error (.qp e)
  | noDescent, .attempted attempt =>
    attempt.result = .error .degenerate ∨ ∃ d, attempt.result = .error (.nonDescent d)
  | noDescent, .searched _ (.error e) => e.reason = .nonDescent
  | unbounded, .searched _ (.error e) => ∃ t, e.reason = .notBracketed t
  | unacceptable, .searched _ (.error e) =>
    (∃ l u, e.reason = .wolfeNotSatisfied l u) ∨ e.reason = .armijoNotSatisfied
  | _, _ => False

/-- The rung is the last one that failed, among some events: it follows the failure before it, if there
is one, and goes up to its own failure. -/
def IsLastRung (rung events : List (Event R n)) : Prop :=
  ∃ (earlier : List (Event R n)) (ladder : Ladder) (rest : List (Event R n)),
    events = earlier ++ rung ++ .failed ladder .exhausted :: rest ∧
    (∀ e, earlier.getLast? = some e → e.isFailed = true) ∧
    ∀ e ∈ rung ++ rest, e.isFailed = false

theorem IsLastRung.append {rung events more : List (Event R n)} (h : IsLastRung rung events)
    (hmore : ∀ e ∈ more, e.isFailed = false) : IsLastRung rung (events ++ more) := by
  obtain ⟨earlier, ladder, rest, rfl, hearlier, hfailed⟩ := h
  refine ⟨earlier, ladder, rest ++ more, by simp, hearlier, ?_⟩
  rw [← List.append_assoc]
  exact List.forall_mem_append.2 ⟨hfailed, hmore⟩

/-! ## One attempt -/

/-- What is known of the events of an attempt: it is not yet a failure of its rung, the last event shows
why it will be one, and only an attempt that is followed by another one notes that. -/
structure IsAttempt (e : Option (ClimbEnd R n)) (events : List (Event R n)) : Prop where
  isFailed : ∀ x ∈ events, x.isFailed = false
  reattempts : events.countP (·.isReattempted) = if e.isNone then 1 else 0
  cause : ∀ f, e = some (.failed f) → ∃ cause, events.getLast? = some cause ∧ f.ShownBy cause

namespace IsAttempt

variable {attempt : DirectionAttempt R n} {trials : List (Event R n)} {task : SearchTask R n}
    {result : SearchResult R n}

theorem made {f : ClimbFailure} (hshown : f.ShownBy (.attempted attempt)) :
    IsAttempt (some (.failed f)) [.attempted attempt] where
  isFailed := List.forall_mem_singleton.2 rfl
  reattempts := rfl
  cause := by
    rintro _ ⟨⟩
    exact ⟨_, rfl, hshown⟩

theorem searched {e : ClimbEnd R n} (htrials : ∀ x ∈ trials, x.IsTrial)
    (hshown : ∀ f, e = .failed f → f.ShownBy (.searched task result)) :
    IsAttempt (some e) (.attempted attempt :: trials ++ [.searched task result]) where
  isFailed := by
    have hfailed : ∀ x ∈ trials, x.isFailed = false := fun x hx ↦
      Event.isFailed_of_isTrial (htrials x hx)
    exact List.forall_mem_append.2 ⟨List.forall_mem_cons.2 ⟨rfl, hfailed⟩,
      List.forall_mem_singleton.2 rfl⟩
  reattempts := by
    have hnone : trials.countP (·.isReattempted) = 0 := List.countP_eq_zero.2 fun x hx ↦ by
      simp [Event.isReattempted_of_isTrial (htrials x hx)]
    rw [List.countP_append, List.countP_cons, hnone]
    rfl
  cause := by
    rintro f ⟨⟩
    exact ⟨_, List.getLast?_concat, hshown f rfl⟩

/-- A failure that is followed by another attempt. -/
theorem again {f : ClimbFailure} {events : List (Event R n)} (h : IsAttempt (some (.failed f)) events)
    (level : Level) (count limit : Nat) (μ : R) :
    IsAttempt none (events ++ [.reattempted level count limit μ]) where
  isFailed := List.forall_mem_append.2 ⟨h.isFailed, List.forall_mem_singleton.2 rfl⟩
  reattempts := by
    rw [List.countP_append, h.reattempts]
    rfl
  cause _ h := nomatch h

end IsAttempt

variable [Scalar R]

namespace IterationContext

variable {it : IterationContext σ R n} {level : Level} {left : Nat} {c c' : Climb R n}
    {d : Direction R n} {s s₁ s' : Session σ R n}

/-- A look-up notes its answer. -/
theorem exists_lookups_of_lookUp {x : Vector R n} {answer : Lookup R n}
    (h : it.lookUp x s = (answer, s')) :
    ∃ lookups, s'.transcript.toList = s.transcript.toList ++ lookups ∧ (∀ e ∈ lookups, e.IsTrial) ∧
      lookups.filterMap (·.observed? it.shape) = answer.observed?.toList := by
  have hobserved (given : Evaluation R) (rest : List (Event R n))
      (hrest : rest.filterMap (·.observed? it.shape) = []) :
      (.evaluated x given :: rest).filterMap (·.observed? it.shape)
        = (given.screened it.shape x).observed?.toList := by
    rw [List.filterMap_cons, hrest, Event.observed?]
    cases (given.screened it.shape x).observed? <;> rfl
  rcases RunContext.exists_answer_of_lookUp h with ⟨rfl, rfl⟩ | ⟨given, rfl, hevents | hevents⟩
  · exact ⟨[], (List.append_nil _).symm, List.forall_mem_nil _, rfl⟩
  · exact ⟨_, hevents, List.forall_mem_singleton.2 trivial, hobserved given [] rfl⟩
  · exact ⟨_, hevents, List.forall_mem_cons.2 ⟨trivial, List.forall_mem_singleton.2 trivial⟩,
      hobserved given [.misshapen] rfl⟩

/-- Look-ups along a ray note their answers, and those that were let through are the trials. -/
theorem exists_lookups_of_passed {task : SearchTask R n} {trials : List (Trial R n)}
    (h : Passed it.lookUp task s trials s') :
    ∃ lookups, s'.transcript.toList = s.transcript.toList ++ lookups ∧
      HasTrials it.shape task trials lookups := by
  induction h with
  | none => exact ⟨[], (List.append_nil _).symm, .nil (List.forall_mem_nil _) rfl⟩
  | refused step _ hask ih | stopped step _ hask ih =>
    obtain ⟨lookups, hlookups, htrials⟩ := ih
    obtain ⟨more, hmore, hall, hobserved⟩ := exists_lookups_of_lookUp hask
    exact ⟨lookups ++ more, by rw [hmore, hlookups, List.append_assoc], by
      simpa using htrials.append (.nil hall hobserved)⟩
  | @passed trials s₁ s₂ o step _ hask ih =>
    obtain ⟨lookups, hlookups, htrials⟩ := ih
    obtain ⟨more, hmore, hall, hobserved⟩ := exists_lookups_of_lookUp hask
    obtain ⟨-, hanswer, -⟩ := RunContext.lookUp_eq_evaluated hask
    obtain ⟨hpoint, -⟩ := Evaluation.eq_of_toObservation?_eq_some hanswer
    exact ⟨lookups ++ more, by rw [hmore, hlookups, List.append_assoc],
      htrials.append ⟨hall, hobserved, List.forall_mem_singleton.2 rfl,
        List.forall_mem_singleton.2 hpoint⟩⟩

/-- **A search notes its look-ups, and then its result.**  If it fails, what it keeps is kept of its
trials. -/
theorem exists_trials_of_searchAlong {result : SearchResult R n}
    (h : it.searchAlong c d s = ((result, c'), s')) :
    ∃ trials lookups, s'.transcript.toList
        = s.transcript.toList ++ lookups ++ [.searched (it.task c' d) result] ∧
      HasTrials it.shape ((it.task c' d).forSearch it.options.search) trials lookups ∧
      ∀ error, result = .error error → error.kept = trials.foldl Trial.keepLower none := by
  obtain ⟨-, s₁, s₂, hsearch, rfl, hs₁⟩ := searchAlong_eq h
  let task := (it.task c' d).forSearch it.options.search
  obtain ⟨first, hfirst, hlowered⟩ : ∃ first, s₁.transcript.toList = s.transcript.toList ++ first ∧
      HasTrials it.shape task [] first := by
    rcases hs₁ with rfl | rfl
    · exact ⟨[], (List.append_nil _).symm, .nil (List.forall_mem_nil _) rfl⟩
    · exact ⟨_, toList_note _ _, .nil (List.forall_mem_singleton.2 trivial) rfl⟩
  obtain ⟨trials, hpassed, hkept⟩ : ∃ trials, Passed it.lookUp task s₁ trials s₂ ∧
      ∀ error, result = .error error → error.kept = trials.foldl Trial.keepLower none := by
    have hexplored := explored_lineSearch it.lookUp (it.task c' d) it.options.search s₁
    rw [hsearch] at hexplored
    cases hexplored with
    | accepted step evaluations hpassed hask =>
      exact ⟨_, hpassed.passed step hask, fun _ h ↦ nomatch h⟩
    | failed hpassed hkept =>
      refine ⟨_, hpassed, ?_⟩
      rintro _ ⟨⟩
      exact hkept
  obtain ⟨lookups, hlookups, htrials⟩ := exists_lookups_of_passed hpassed
  refine ⟨trials, first ++ lookups, ?_, hlowered.append htrials, hkept⟩
  rw [toList_note, hlookups, hfirst, List.append_assoc s.transcript.toList]

/-- The events of an attempt that gets as far as a search. -/
theorem exists_events_of_searchAlong {result : SearchResult R n}
    (hd : it.makeDirection level c.mu s = (.ok d, s₁))
    (hs : it.searchAlong c d s₁ = ((result, c'), s')) :
    ∃ attempt : DirectionAttempt R n, attempt.result = .ok d ∧ ∃ trials lookups,
      s'.transcript.toList = s.transcript.toList
        ++ (.attempted attempt :: lookups ++ [.searched (it.task c' d) result]) ∧
      HasTrials it.shape ((it.task c' d).forSearch it.options.search) trials lookups ∧
      ∀ error, result = .error error → error.kept = trials.foldl Trial.keepLower none := by
  obtain ⟨attempt, -, hresult, hmade⟩ := exists_attempt_of_makeDirection hd
  obtain ⟨trials, lookups, hlookups, htrials, hkept⟩ := exists_trials_of_searchAlong hs
  refine ⟨attempt, hresult, trials, lookups, ?_, htrials, hkept⟩
  rw [hlookups, hmade]
  simp

/-- **The events of an attempt.** -/
theorem Attempted.exists_events {e : Option (ClimbEnd R n)}
    (h : it.Attempted level left c s e c' s') :
    ∃ events, s'.transcript.toList = s.transcript.toList ++ events ∧ IsAttempt e events := by
  have hmade {f : ClimbFailure} {error : DirectionError R n} {s₁ : Session σ R n}
      (hd : it.makeDirection level c.mu s = (.error error, s₁))
      (hshown : ∀ attempt : DirectionAttempt R n, attempt.result = .error error →
        f.ShownBy (.attempted attempt)) :
      ∃ events, s₁.transcript.toList = s.transcript.toList ++ events ∧
        IsAttempt (some (.failed f)) events := by
    obtain ⟨attempt, -, hresult, hevents⟩ := exists_attempt_of_makeDirection hd
    exact ⟨_, hevents, .made (hshown attempt hresult)⟩
  have hsearched {e : ClimbEnd R n} {d : Direction R n} {result : SearchResult R n} {c₁ : Climb R n}
      {s₁ s₂ : Session σ R n} (hd : it.makeDirection level c.mu s = (.ok d, s₁))
      (hs : it.searchAlong c d s₁ = ((result, c₁), s₂))
      (hshown : ∀ f, e = .failed f → f.ShownBy (.searched (it.task c₁ d) result)) :
      ∃ events, s₂.transcript.toList = s.transcript.toList ++ events ∧ IsAttempt (some e) events := by
    obtain ⟨attempt, -, trials, lookups, hevents, htrials, -⟩ := exists_events_of_searchAlong hd hs
    exact ⟨_, hevents, .searched htrials.isTrial hshown⟩
  cases h with
  | qp hd => exact hmade hd fun _ hresult ↦ ⟨_, hresult⟩
  | nonDescent hd => exact hmade hd fun _ hresult ↦ .inr ⟨_, hresult⟩
  | degenerate hd => exact hmade hd fun _ hresult ↦ .inl hresult
  | moved hd hs | stopped hd hs => exact hsearched hd hs fun _ h ↦ nomatch h
  | ascending hd hs hreason | unacceptable hd hs hreason =>
    refine hsearched hd hs ?_
    rintro f ⟨⟩
    exact hreason
  | unbounded hd hs hreason =>
    refine hsearched hd hs ?_
    rintro f ⟨⟩
    exact ⟨_, hreason⟩
  | @again d s₁ e c₁ s₂ t hd hs hreason =>
    obtain ⟨events, hevents, hfailed⟩ := hsearched (e := .failed .unbounded) hd hs (by
      rintro f ⟨⟩
      exact ⟨t, hreason⟩)
    refine ⟨_, ?_, hfailed.again level (it.reattempts.limit - (left - 1)) it.reattempts.limit
      ((c₁.searched d e).mu * it.reattempts.factor)⟩
    show (note _ s₂).2.transcript.toList = _
    rw [toList_note, hevents, List.append_assoc]

/-! ## The present rung -/

/-- The events of the present rung, after those of the rungs before it, since a session. -/
def OnRung (it : IterationContext σ R n) (s₀ : Session σ R n) (a : ClimbStage σ R n) : Prop :=
  ∃ earlier rung, a.session.transcript.toList = s₀.transcript.toList ++ (earlier ++ rung) ∧
    (∀ e, earlier.getLast? = some e → e.isFailed = true) ∧ (∀ e ∈ rung, e.isFailed = false) ∧
    rung.countP (·.isReattempted) + a.left = it.reattempts.limit

omit [Scalar R] in
theorem onRung_start (it : IterationContext σ R n) (ladder : Ladder) (c : Climb R n)
    (s : Session σ R n) : it.OnRung s ⟨ladder, it.reattempts.limit, c, s⟩ :=
  ⟨[], [], (List.append_nil _).symm, fun _ h ↦ (nomatch h), List.forall_mem_nil _, Nat.zero_add _⟩

/-- A round goes on with the rung, or goes on to the next one. -/
theorem OnRung.climbRound {s₀ : Session σ R n} {a b : ClimbStage σ R n} (ha : it.OnRung s₀ a)
    (h : it.climbRound a = .inl b) : it.OnRung s₀ b := by
  obtain ⟨earlier, rung, hevents, hearlier, hrung, hcount⟩ := ha
  have hround := it.round_climbRound a
  rw [h] at hround
  cases hround with
  | @again c' s' hattempt =>
    obtain ⟨events, hnext, hattempted⟩ := hattempt.exists_events
    -- an attempt is repeated only while some are left, so none of them is lost by subtraction
    have hleft : a.left ≠ 0 := by cases hattempt; assumption
    refine ⟨earlier, rung ++ events, ?_, hearlier,
      List.forall_mem_append.2 ⟨hrung, hattempted.isFailed⟩, ?_⟩
    · show s'.transcript.toList = _
      rw [hnext, hevents]
      simp
    · show _ + (a.left - 1) = _
      rw [List.countP_append, hattempted.reattempts, ← hcount, Option.isNone_none, if_pos rfl]
      omega
  | @escalated f c' s' hattempt hnext =>
    obtain ⟨events, hnext, hattempted⟩ := hattempt.exists_events
    refine ⟨earlier ++ rung ++ events ++ [.failed a.ladder a.ladder.next], [], ?_, ?_,
      List.forall_mem_nil _, Nat.zero_add _⟩
    · rw [toList_note, hnext, hevents]
      simp
    · intro e he
      rw [List.getLast?_concat] at he
      cases he
      rfl

/-- **The rung that a climb fails on.**  It is the highest permitted one; its last event shows the cause
that the climb reports, and if no step could be bracketed although there are constraints, it was tried
again as often as it may be. -/
theorem exists_lastRung (hoptions : it.options.IsValid) {μ : R} {f : ClimbFailure}
    (h : it.climbFrom (.start it.options.ladder it.engaged) (.start μ) s = ((.failed f, c'), s')) :
    ∃ events rung cause, s'.transcript.toList = s.transcript.toList ++ events ∧
      IsLastRung rung events ∧
      rung.getLast? = some cause ∧ f.ShownBy cause ∧
      (f = .qp → it.engaged = true ∧ it.options.ladder.max ≤ 1) ∧
      (f = .unbounded → it.options.search.backtracking = false ∧
        (it.observation.isConstrained = true →
          rung.countP (·.isReattempted) = it.reattempts.limit)) := by
  obtain ⟨a, s₁, ⟨hrung, hwithin⟩, hattempt, ⟨-, hnext, rfl⟩ | ⟨hnot, -⟩⟩ :=
    exists_last_attempt (P := fun a ↦ it.OnRung s a ∧ a.ladder.IsWithin it.options.ladder.max)
      (fun _ _ hab ha ↦ ⟨ha.1.climbRound hab, isWithin_climbRound hab ha.2⟩)
      ⟨it.onRung_start _ _ _,
        Ladder.isWithin_start hoptions.ladderMin_le_max hoptions.ladderMax_le _⟩ h
  swap
  · exact absurd rfl (hnot f)
  obtain ⟨earlier, rung, hevents, hearlier, hfailed, hcount⟩ := hrung
  obtain ⟨events, hlast, hattempted⟩ := hattempt.exists_events
  obtain ⟨cause, hcause, hshown⟩ := hattempted.cause f rfl
  refine ⟨earlier ++ (rung ++ events) ++ [.failed a.ladder .exhausted], rung ++ events, cause, ?_,
    ⟨earlier, a.ladder, [], rfl, hearlier, ?_⟩, ?_, hshown, ?_, ?_⟩
  · rw [toList_note, hlast, hevents, hnext]
    simp
  · rw [List.append_nil]
    exact List.forall_mem_append.2 ⟨hfailed, hattempted.isFailed⟩
  · rw [List.getLast?_append, hcause]
    rfl
  · rintro rfl
    have hmax := hwithin.index_of_next_exhausted hoptions.ladderMax_le hnext
    cases hattempt with
    | qp hd =>
      have hresult := congrArg Prod.fst hd
      rw [fst_makeDirection] at hresult
      obtain ⟨hengaged, hlevel⟩ := DirectionContext.result_attempt_eq_qp hresult
      refine ⟨hengaged, ?_⟩
      rw [← hmax]
      exact Level.usesSteering_iff.1 hlevel
  · rintro rfl
    cases hattempt with
    | unbounded hd hs hreason hleft =>
      obtain ⟨-, s₂, s₃, hsearch, -⟩ := searchAlong_eq hs
      refine ⟨not_backtracking_of_notBracketed hsearch hreason, fun hconstrained ↦ ?_⟩
      have hzero : a.left = 0 := by
        by_contra hne
        exact hleft ⟨hconstrained, hne⟩
      rw [List.countP_append, hattempted.reattempts, ← hcount, hzero]
      rfl

end IterationContext

end ExactPenalty
