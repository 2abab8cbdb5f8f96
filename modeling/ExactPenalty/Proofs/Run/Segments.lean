import ExactPenalty.Proofs.Run.Transcript

/-!
# The events of one iteration

An iteration enters a record, and what it notes from there on goes up to the next record or to the end
of the run.  `Session.eventsOf` cuts these events out of a transcript by counting its records, so they
do not depend on how the transcript came about.

`RunContext.Noted` says what they are: the events of the climb, if there was one, and those with which
the iteration closes.  `RunContext.noted_eventsOf` says so of every iteration of a run.
-/

set_option autoImplicit false

namespace ExactPenalty

open Session ExactPenalty.Action

variable {σ R : Type} {n : Nat}

/-! ## Cutting a transcript -/

namespace Event

/-- An iteration notes this after its climb, or the next one before its record. -/
def IsClosing : Event R n → Prop
  | conditioned _ | updated _ _ | ended _ _ _ _ => True
  | _ => False

theorem IsClosing.isRecorded {e : Event R n} (he : e.IsClosing) : e.isRecorded = false := by
  cases e <;> first | rfl | exact he.elim

/-- The events after the record of the given number, counted from zero, up to the next record. -/
def afterRecord (k : Nat) : List (Event R n) → List (Event R n)
  | [] => []
  | e :: es =>
    if e.isRecorded then
      match k with
      | 0 => es.takeWhile (!·.isRecorded)
      | k + 1 => afterRecord k es
    else afterRecord k es

theorem afterRecord_append (before : List (Event R n)) {events rest : List (Event R n)} {e : Event R n}
    (he : e.isRecorded = true) (hevents : ∀ x ∈ events, x.isRecorded = false)
    (hrest : ∀ x, rest.head? = some x → x.isRecorded = true) :
    afterRecord (before.countP (·.isRecorded)) (before ++ e :: (events ++ rest)) = events := by
  induction before with
  | nil =>
    have htake : rest.takeWhile (!·.isRecorded) = [] := by
      cases rest with
      | nil => rfl
      | cons x xs => exact List.takeWhile_cons_of_neg (by simp [hrest x rfl])
    rw [List.countP_nil, List.nil_append, afterRecord.eq_def]
    simp only [he, if_true]
    rw [List.takeWhile_append_of_pos fun x hx ↦ by simp [hevents x hx], htake, List.append_nil]
  | cons x before ih =>
    cases hx : x.isRecorded with
    | true => simpa only [List.countP_cons_of_pos hx, List.cons_append, afterRecord, hx, if_true]
    | false =>
      rw [List.countP_cons_of_neg (by simp [hx]), List.cons_append, afterRecord.eq_def]
      simpa only [hx, Bool.false_eq_true, if_false]

end Event

/-- The events of an iteration, without its record. -/
def Session.eventsOf (s : Session σ R n) (k : Nat) : List (Event R n) :=
  Event.afterRecord k s.transcript.toList

/-! ## What an iteration notes -/

variable [Scalar R]

namespace RunContext

/-- The events of an iteration after its record, with what the iteration came to. -/
inductive Noted (run : RunContext σ R n) (a : Stage σ R n) :
    Stage σ R n ⊕ (RunResult R n × Session σ R n) → List (Event R n) → Prop where
  /-- The run ended before the climb. -/
  | ended {reason : Termination} {closing : List (Event R n)} :
      run.test a ≠ none ∨ a.left = 0 ∨ run.exhausted? (run.entered a) ≠ none →
      (∀ e ∈ closing, e.IsClosing) →
      Noted run a (.inr (run.ending a a.progress.current.mu reason (run.entered a))) closing
  /-- The climb gave no step. -/
  | failed {reason : Termination} {μ : R} {s : Session σ R n} {climb closing : List (Event R n)} :
      (run.climber a).run a.progress.current.mu (run.entered a) = ((.error reason, μ), s) →
      s.transcript.toList = (run.entered a).transcript.toList ++ climb →
      (∀ e ∈ closing, e.IsClosing) → Noted run a (.inr (run.ending a μ reason s)) (climb ++ closing)
  | moved {move : Move R n} {μ : R} {s : Session σ R n} {climb closing : List (Event R n)} :
      (run.climber a).run a.progress.current.mu (run.entered a) = ((.ok move, μ), s) →
      s.transcript.toList = (run.entered a).transcript.toList ++ climb →
      (∀ e ∈ closing, e.IsClosing) → Noted run a (.inl (run.following a move μ s)) (climb ++ closing)

variable {run : RunContext σ R n} {a b : Stage σ R n} {as : List (Stage σ R n)}
    {r : RunResult R n × Session σ R n} {events : List (Event R n)}

/-- A climb makes no record. -/
theorem exists_unrecorded_climb {s : Session σ R n} {answer : Except Termination (Move R n) × R}
    (h : (run.climber a).run a.progress.current.mu (run.entered a) = (answer, s)) :
    ∃ climb, s.transcript.toList = (run.entered a).transcript.toList ++ climb ∧
      ∀ e ∈ climb, e.isRecorded = false := by
  have hcontinues := (run.climber a).continues_run a.progress.current.mu (run.entered a)
  rw [h] at hcontinues
  obtain ⟨climb, hclimb, hnotes⟩ := hcontinues
  refine ⟨climb, hclimb, fun e he ↦ ?_⟩
  have hnoted := hnotes e he
  cases e <;> first | rfl | exact hnoted.elim

/-- After the climb that gave no step, the end of the run is noted. -/
theorem exists_closing_ending (run : RunContext σ R n) (a : Stage σ R n) (μ : R) (reason : Termination)
    (s : Session σ R n) : ∃ closing : List (Event R n), (∀ e ∈ closing, e.IsClosing) ∧
      (run.ending a μ reason s).2.transcript.toList = s.transcript.toList ++ closing :=
  ⟨[.ended reason s.evaluations _ _], List.forall_mem_singleton.2 trivial, Array.toList_push⟩

/-- After the climb that gave a step, it is noted what becomes of the curvature, up to the next
record. -/
theorem exists_closing_following (run : RunContext σ R n) (a : Stage σ R n) (move : Move R n) (μ : R)
    (s : Session σ R n) : ∃ closing : List (Event R n), (∀ e ∈ closing, e.IsClosing) ∧
      (run.entered (run.following a move μ s)).transcript.toList
        = s.transcript.toList ++ closing ++ [.recorded (run.record (run.following a move μ s))] := by
  obtain ⟨raised, hentered⟩ := run.transcript_entered (run.following a move μ s)
  obtain ⟨update, hupdate⟩ : ∃ update : SecantUpdate R,
      (run.following a move μ s).session.transcript.toList
        = s.transcript.toList ++ [Event.updated a.progress.iteration update] :=
    ⟨((run.recorded a).moved run.options.stopping (run.climber a).engaged move μ).1,
      Array.toList_push⟩
  refine ⟨[.updated a.progress.iteration update, .conditioned raised],
    List.forall_mem_cons.2 ⟨trivial, List.forall_mem_singleton.2 trivial⟩, ?_⟩
  rw [hentered, hupdate]
  simp

/-- The transcript when the next record is made, or at the end of the run. -/
def recordedNext (run : RunContext σ R n) (a : Stage σ R n) : List (Event R n) :=
  (run.iterateOnce a).elim (fun b ↦ (run.entered b).transcript.toList)
    (fun r ↦ r.2.transcript.toList)

theorem exists_noted (run : RunContext σ R n) (a : Stage σ R n) :
    ∃ events, run.Noted a (run.iterateOnce a) events ∧
      (∀ e ∈ events, e.isRecorded = false) ∧
      run.recordedNext a = (run.entered a).transcript.toList ++ events
        ++ (run.iterateOnce a).elim (fun b ↦ [.recorded (run.record b)]) fun _ ↦ [] := by
  have hunrecorded {climb closing : List (Event R n)} (hclimb : ∀ e ∈ climb, e.isRecorded = false)
      (hclosing : ∀ e ∈ closing, e.IsClosing) : ∀ e ∈ climb ++ closing, e.isRecorded = false :=
    List.forall_mem_append.2 ⟨hclimb, fun e he ↦ (hclosing e he).isRecorded⟩
  have hiteration := run.iteration_iterateOnce a
  rw [recordedNext]
  rcases hresult : run.iterateOnce a with b | r <;> rw [hresult] at hiteration
  · cases hiteration with
    | @moved move μ s _ _ _ hmoved =>
      obtain ⟨climb, htranscript, hrecorded⟩ := exists_unrecorded_climb hmoved
      obtain ⟨closing, hclosing, hnext⟩ := run.exists_closing_following a move μ s
      refine ⟨climb ++ closing, .moved hmoved htranscript hclosing, hunrecorded hrecorded hclosing, ?_⟩
      rw [Sum.elim_inl, Sum.elim_inl, hnext, htranscript, List.append_assoc _ climb]
  · cases hiteration with
    | tested hended | spent _ hended | exhausted _ _ hended =>
      obtain ⟨closing, hclosing, hnext⟩ :=
        run.exists_closing_ending a a.progress.current.mu _ (run.entered a)
      exact ⟨closing, .ended (by simp [hended]) hclosing, fun e he ↦ (hclosing e he).isRecorded,
        hnext.trans (List.append_nil _).symm⟩
    | @failed reason μ s _ _ _ hfailed =>
      obtain ⟨climb, htranscript, hrecorded⟩ := exists_unrecorded_climb hfailed
      obtain ⟨closing, hclosing, hnext⟩ := run.exists_closing_ending a μ reason s
      refine ⟨climb ++ closing, .failed hfailed htranscript hclosing,
        hunrecorded hrecorded hclosing, ?_⟩
      rw [Sum.elim_inr, Sum.elim_inr, hnext, htranscript, List.append_assoc, List.append_nil]

/-- Where a climb was made, its events come first. -/
theorem Noted.exists_climb {next : Stage σ R n ⊕ (RunResult R n × Session σ R n)}
    {answer : Except Termination (Move R n) × R} {s : Session σ R n} (h : run.Noted a next events)
    (htest : run.test a = none) (hleft : a.left ≠ 0)
    (hexhausted : run.exhausted? (run.entered a) = none)
    (hrun : (run.climber a).run a.progress.current.mu (run.entered a) = (answer, s)) :
    ∃ climb closing, events = climb ++ closing ∧
      s.transcript.toList = (run.entered a).transcript.toList ++ climb ∧
      ∀ e ∈ closing, e.IsClosing := by
  cases h with
  | ended hended _ => simp [htest, hleft, hexhausted] at hended
  | failed hrun' hclimb hclosing | moved hrun' hclimb hclosing =>
    cases hrun.symm.trans hrun'
    exact ⟨_, _, rfl, hclimb, hclosing⟩

/-! ## The events of a run -/

/-- As many records are noted as there were iterations. -/
def CountsRecords (a : Stage σ R n) : Prop :=
  a.session.transcript.toList.countP (·.isRecorded) = a.progress.iteration

theorem CountsRecords.iterateOnce (ha : CountsRecords a) (h : run.iterateOnce a = .inl b) :
    CountsRecords b := by
  obtain ⟨raised, hentered⟩ := run.transcript_entered a
  have hcontinues := run.continues_entered a
  rw [h] at hcontinues
  obtain ⟨events, hevents, hrecorded⟩ := hcontinues
  have hnone : events.countP (·.isRecorded) = 0 :=
    List.countP_eq_zero.2 fun e he ↦ by simp [hrecorded e he]
  rw [Sum.elim_inl] at hevents
  rw [CountsRecords, hevents, hentered, List.countP_append, List.countP_append, ha, hnone]
  obtain ⟨_, _, _, -, -, rfl⟩ := exists_move h
  rfl

/-- The events of an iteration are those between its record and the next one. -/
theorem eventsOf_eq (run : RunContext σ R n) {s : Session σ R n} {rest : List (Event R n)}
    (ha : CountsRecords a) (hevents : ∀ e ∈ events, e.isRecorded = false)
    (hrest : ∀ x, rest.head? = some x → x.isRecorded = true)
    (h : s.transcript.toList = (run.entered a).transcript.toList ++ events ++ rest) :
    s.eventsOf a.progress.iteration = events := by
  obtain ⟨raised, hentered⟩ := run.transcript_entered a
  let before : List (Event R n) := a.session.transcript.toList ++ [.conditioned raised]
  have hbefore : before.countP (·.isRecorded) = a.progress.iteration := by
    rw [List.countP_append, ha]
    rfl
  rw [Session.eventsOf, h, hentered, ← hbefore]
  have hcut := Event.afterRecord_append before (e := .recorded (run.record a)) rfl hevents hrest
  simpa [before] using hcut

/-- **What an iteration of a run notes**, and what follows it: the record of the next iteration, or the
end of the run. -/
theorem noted_eventsOf {env : Environment σ R n} {options : Options R} {first : Observation R n}
    {world : σ} {k : Nat} {record : IterationRecord R n}
    (hpath : Path run.iterateOnce (.initial env options first world :: as) r)
    (hk : r.1.history[k]? = some record) :
    ∃ b, (.initial env options first world :: as)[k]? = some b ∧ run.record b = record ∧
      b.progress.iteration = k ∧ run.Noted b (run.iterateOnce b) (r.2.eventsOf k) ∧
      (∀ c, run.iterateOnce b = .inl c → r.1.history[k + 1]? = some (run.record c)) ∧
      ∀ r', run.iterateOnce b = .inr r' → r' = r ∧ r.1.history.size = k + 1 := by
  obtain ⟨b, hb, rfl⟩ := exists_stage hpath rfl hk
  have hmem := List.mem_of_getElem? hb
  have hiteration : b.progress.iteration = k := by
    rw [iteration_of_path hpath hb]
    exact Nat.zero_add k
  have hcounts : CountsRecords b :=
    hpath.forall_mem (P := CountsRecords) (fun _ _ _ hround h ↦ h.iterateOnce hround) rfl b hmem
  obtain ⟨events, hnoted, hrecorded, hnext⟩ := run.exists_noted b
  have hhistory : r.1.history.toList
      = (Stage.initial env options first world :: as).map run.record := history_of_path hpath
  rw [recordedNext] at hnext
  refine ⟨b, hb, rfl, hiteration, ?_⟩
  cases hlast : (Stage.initial env options first world :: as)[k + 1]? with
  | some c =>
    have hround := hpath.step_of_getElem? hb hlast
    obtain ⟨after, hafter, -⟩ := continues_entered_of_path hpath (List.mem_of_getElem? hlast)
    rw [hround, Sum.elim_inl, Sum.elim_inl] at hnext
    have htranscript : r.2.transcript.toList = (run.entered b).transcript.toList ++ events
        ++ .recorded (run.record c) :: after := by
      rw [hafter, hnext, List.append_assoc _ [_] after, List.singleton_append]
    have hevents : r.2.eventsOf b.progress.iteration = events :=
      run.eventsOf_eq hcounts hrecorded (by simp [Event.isRecorded]) htranscript
    refine ⟨by rwa [← hiteration, hevents], fun c' hc' ↦ ?_, fun r' hr' ↦ ?_⟩
    · cases hround.symm.trans hc'
      rw [← Array.getElem?_toList, hhistory, List.getElem?_map, hlast]
      rfl
    · cases hround.symm.trans hr'
  | none =>
    have hround : run.iterateOnce b = .inr r := hpath.step_of_getElem?_none hb hlast
    rw [hround, Sum.elim_inr, Sum.elim_inr] at hnext
    have hevents : r.2.eventsOf b.progress.iteration = events :=
      run.eventsOf_eq hcounts hrecorded (by simp) hnext
    refine ⟨by rwa [← hiteration, hevents], fun c hc ↦ ?_, fun r' hr' ↦ ?_⟩
    · cases hround.symm.trans hc
    · cases hround.symm.trans hr'
      have hle := List.getElem?_eq_none_iff.1 hlast
      have hlt := (List.getElem?_eq_some_iff.1 hb).1
      exact ⟨rfl, (size_history_of_path hpath rfl).trans (le_antisymm hle hlt)⟩

end RunContext

end ExactPenalty
