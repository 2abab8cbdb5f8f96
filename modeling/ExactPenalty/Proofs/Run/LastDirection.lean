import ExactPenalty.Proofs.Run.LastRung

/-!
# The last direction of a climb

A climb remembers the last direction that was computed in it, and the best trial along it, because a step
may be forced from there.  The two are kept in different branches: a direction that does not descend is
not searched, an attempt without a direction leaves both alone, and a failed search replaces both.

`LastDirection` says what the events of a climb tell of the last direction: which one it is, and the
trials of its own search, if it was searched.  `IterationContext.tells_climbFrom` shows that a climb that
fails remembers just that direction, and the best of just these trials.
-/

set_option autoImplicit false

namespace ExactPenalty

open Session ExactPenalty.Action

variable {σ R : Type} [Scalar R] {n : Nat}

/-! ## Directions in the transcript -/

/-- The direction that an event tells of. -/
def Event.direction? : Event R n → Option (Direction R n)
  | attempted attempt => attempt.direction?
  | _ => none

/-- The event tells neither of a direction nor of an evaluation. -/
def Event.IsQuiet (e : Event R n) : Prop := e.direction? = none ∧ e.isEvaluated = false

omit [Scalar R] in
theorem Event.direction?_of_isTrial {e : Event R n} (he : e.IsTrial) : e.direction? = none := by
  cases e <;> first | rfl | exact he.elim

/-- The last direction among the events of a climb from a point, with the trials of its search: there is
none, or it was not searched because it does not descend, or the search along it failed. -/
inductive LastDirection (shape : Nat × Nat) (x : Vector R n) (o : SearchOptions R) :
    Option (Direction R n) → List (Trial R n) → List (Event R n) → Prop where
  | none {events : List (Event R n)} : (∀ e ∈ events, e.direction? = Option.none) →
      LastDirection shape x o Option.none [] events
  | refused (earlier : List (Event R n)) {d : Direction R n} {attempt : DirectionAttempt R n}
      {rest : List (Event R n)} :
      attempt.result = .error (.nonDescent d) → (∀ e ∈ rest, e.IsQuiet) →
      LastDirection shape x o (some d) [] (earlier ++ .attempted attempt :: rest)
  | searched (earlier : List (Event R n)) {d : Direction R n} {attempt : DirectionAttempt R n}
      {task : SearchTask R n} (error : SearchError R n) {trials : List (Trial R n)}
      {lookups rest : List (Event R n)} :
      attempt.result = .ok d → task.start.point = x → task.direction = d.vector →
      HasTrials shape (task.forSearch o) trials lookups → (∀ e ∈ rest, e.IsQuiet) →
      LastDirection shape x o (some d) trials
        (earlier ++ .attempted attempt :: lookups ++ .searched task (.error error) :: rest)

theorem LastDirection.append {shape : Nat × Nat} {x : Vector R n} {o : SearchOptions R}
    {d : Option (Direction R n)} {trials : List (Trial R n)} {events more : List (Event R n)}
    (h : LastDirection shape x o d trials events) (hmore : ∀ e ∈ more, e.IsQuiet) :
    LastDirection shape x o d trials (events ++ more) := by
  cases h with
  | none hnone => exact .none (List.forall_mem_append.2 ⟨hnone, fun e he ↦ (hmore e he).1⟩)
  | refused earlier hresult hrest =>
    rw [List.append_assoc, List.cons_append]
    exact .refused earlier hresult (List.forall_mem_append.2 ⟨hrest, hmore⟩)
  | searched earlier error hresult hstart hdirection htrials hrest =>
    rw [List.append_assoc, List.cons_append]
    exact .searched earlier error hresult hstart hdirection htrials
      (List.forall_mem_append.2 ⟨hrest, hmore⟩)

/-! ## Climbs -/

namespace IterationContext

variable {it : IterationContext σ R n} {level : Level} {left : Nat} {c c' : Climb R n}
    {d : Direction R n} {μ : R} {s₀ s s' : Session σ R n}

/-- The transcript since a session tells of the direction and of the trials that the climb remembers. -/
def Tells (it : IterationContext σ R n) (s₀ : Session σ R n) (c : Climb R n) (s : Session σ R n) :
    Prop :=
  ∃ events trials, s.transcript.toList = s₀.transcript.toList ++ events ∧
    LastDirection it.shape it.observation.point it.options.search c.lastDirection trials events ∧
    c.lastTrial = trials.foldl Trial.keepLower none

theorem Tells.append {more : List (Event R n)} (hc : it.Tells s₀ c s)
    (hevents : s'.transcript.toList = s.transcript.toList ++ more) (hmore : ∀ e ∈ more, e.IsQuiet) :
    it.Tells s₀ c s' := by
  obtain ⟨events, trials, htranscript, hlast, htrial⟩ := hc
  exact ⟨events ++ more, trials, by rw [hevents, htranscript, List.append_assoc],
    hlast.append hmore, htrial⟩

theorem Tells.note {e : Event R n} (hc : it.Tells s₀ c s) (he : e.IsQuiet) :
    it.Tells s₀ c (note e s).2 :=
  hc.append (toList_note _ _) (List.forall_mem_singleton.2 he)

/-- After a failed search the last direction is the one that was searched, and its trials are those of
this search, whatever was tried before. -/
theorem Tells.searched {e : SearchError R n} {c₁ : Climb R n} {s₁ s₂ : Session σ R n}
    (hc : it.Tells s₀ c s) (hd : it.makeDirection level c.mu s = (.ok d, s₁))
    (hs : it.searchAlong c d s₁ = ((.error e, c₁), s₂)) : it.Tells s₀ (c₁.searched d e) s₂ := by
  obtain ⟨events, -, hevents, -, -⟩ := hc
  obtain ⟨attempt, hresult, trials, lookups, hnew, htrials, hkept⟩ := exists_events_of_searchAlong hd hs
  have hlast : LastDirection it.shape it.observation.point it.options.search (some d) trials
      (events ++ .attempted attempt :: lookups ++ [.searched (it.task c₁ d) (.error e)]) :=
    .searched events e hresult rfl rfl htrials (List.forall_mem_nil _)
  refine ⟨_, trials, ?_, hlast, hkept e rfl⟩
  rw [hnew, hevents]
  simp

/-- An attempt that accepts no step keeps track of the last direction. -/
theorem Tells.attempted {e : Option (ClimbEnd R n)} (hc : it.Tells s₀ c s)
    (h : it.Attempted level left c s e c' s') (hnot : ∀ move, e ≠ some (.moved move)) :
    it.Tells s₀ c' s' := by
  have hfailed {error : DirectionError R n} {s₁ : Session σ R n}
      (hd : it.makeDirection level c.mu s = (.error error, s₁))
      (hnone : ∀ attempt : DirectionAttempt R n, attempt.result = .error error →
        attempt.direction? = none) : it.Tells s₀ c s₁ := by
    obtain ⟨attempt, -, hresult, hnew⟩ := exists_attempt_of_makeDirection hd
    exact hc.append hnew (List.forall_mem_singleton.2 ⟨hnone attempt hresult, rfl⟩)
  cases h with
  | qp hd | degenerate hd => exact hfailed hd fun attempt h ↦ by rw [DirectionAttempt.direction?, h]
  | nonDescent hd =>
    -- the direction counts as the last one although no search was made along it
    obtain ⟨events, -, hevents, -, -⟩ := hc
    obtain ⟨attempt, -, hresult, hnew⟩ := exists_attempt_of_makeDirection hd
    exact ⟨_, [], by rw [hnew, hevents, List.append_assoc],
      .refused events hresult (List.forall_mem_nil _), rfl⟩
  | moved => exact absurd rfl (hnot _)
  | stopped hd hs | ascending hd hs | unacceptable hd hs | unbounded hd hs =>
    exact hc.searched hd hs
  | @again d s₁ e c₁ s₂ t hd hs =>
    have hnoted := (hc.searched hd hs).note (e := .reattempted level (it.reattempts.limit - (left - 1))
      it.reattempts.limit ((c₁.searched d e).mu * it.reattempts.factor)) ⟨rfl, rfl⟩
    exact hnoted

theorem Tells.climbRound {a b : ClimbStage σ R n} (ha : it.Tells s₀ a.climb a.session)
    (h : it.climbRound a = .inl b) : it.Tells s₀ b.climb b.session := by
  have hround := it.round_climbRound a
  rw [h] at hround
  cases hround with
  | again hattempt => exact ha.attempted hattempt fun _ h ↦ nomatch h
  | escalated hattempt _ =>
    exact (ha.attempted hattempt fun _ h ↦ nomatch h).note ⟨rfl, rfl⟩

theorem tells_start (it : IterationContext σ R n) (μ : R) (s : Session σ R n) :
    it.Tells s (.start μ) s :=
  ⟨[], [], (List.append_nil _).symm, .none (List.forall_mem_nil _), rfl⟩

/-- **A climb that failed remembers its last direction**, and the best trial of the search along it. -/
theorem tells_climbFrom {ladder : Ladder} {f : ClimbFailure}
    (h : it.climbFrom ladder (.start μ) s = ((.failed f, c), s')) : it.Tells s c s' := by
  obtain ⟨a, s₁, ha, hattempt, ⟨-, -, rfl⟩ | ⟨hnot, -⟩⟩ := exists_last_attempt
    (P := fun a ↦ it.Tells s a.climb a.session) (fun _ _ hab ha ↦ ha.climbRound hab)
    (it.tells_start μ s) h
  · exact (ha.attempted hattempt fun _ h ↦ nomatch h).note ⟨rfl, rfl⟩
  · exact absurd rfl (hnot f)

end IterationContext

end ExactPenalty
