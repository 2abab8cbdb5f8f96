import ExactPenalty.Proofs.Run.Iterations
import ExactPenalty.Proofs.Run.Session
import ExactPenalty.Proofs.Search.Lookups
import ExactPenalty.Proofs.Service

/-!
# What a run does to its session

An iteration changes its session by notes, look-ups and attempts at directions only.  So whatever
these do to the session, the iteration does (`IterationContext.Respects.leads_run`); and what its
iterations do, the run does (`RunContext.rel_iterateOnce`, `Path.rel`).

Where a relation has to do with the world as well, it is enough to look at one thing at a time: a note,
an evaluation, a quadratic program, a draw of random numbers (`RunContext.Respects`).

The first thing to be said like that is that a transcript only grows: `Session.Continues P` relates a
session to a later one whose transcript has more events, all with the property `P`.  The events of a
climb record nothing, and every attempt among them was made from the context of the iteration
(`IterationContext.continues_run`).
-/

set_option autoImplicit false

namespace ExactPenalty

open Session ExactPenalty.Action

variable {σ R : Type} {n : Nat}

/-! ## Events -/

namespace Event

/-- The problem was evaluated. -/
def isEvaluated : Event R n → Bool
  | evaluated _ _ => true
  | _ => false

/-- An iterate entered the history. -/
def isRecorded : Event R n → Bool
  | recorded _ => true
  | _ => false

/-- A note that goes with no evaluation, no attempt at a direction and no record. -/
def IsRemark : Event R n → Prop
  | evaluated _ _ | attempted _ | recorded _ => False
  | _ => True

theorem isEvaluated_of_isRemark {e : Event R n} (h : e.IsRemark) : e.isEvaluated = false := by
  cases e <;> first | rfl | exact h.elim

end Event

/-! ## Transcripts -/

/-- The transcript of the second session has more events than that of the first, all with a
property. -/
def Session.Continues (P : Event R n → Prop) (s s' : Session σ R n) : Prop :=
  ∃ events, s'.transcript.toList = s.transcript.toList ++ events ∧ ∀ e ∈ events, P e

namespace Session.Continues

variable {P Q : Event R n → Prop} {s s' : Session σ R n}

instance instIsPreorder : IsPreorder (Session σ R n) (Session.Continues P) where
  refl s := ⟨[], (List.append_nil _).symm, fun _ h ↦ absurd h List.not_mem_nil⟩
  trans s₁ s₂ s₃ := by
    rintro ⟨es, hes, hP⟩ ⟨fs, hfs, hQ⟩
    refine ⟨es ++ fs, by rw [hfs, hes, List.append_assoc], fun e he ↦ ?_⟩
    rcases List.mem_append.1 he with he | he
    · exact hP e he
    · exact hQ e he

theorem mono (h : Session.Continues P s s') (hPQ : ∀ e, P e → Q e) :
    Session.Continues Q s s' := by
  obtain ⟨es, hes, hP⟩ := h
  exact ⟨es, hes, fun e he ↦ hPQ e (hP e he)⟩

theorem mem {e : Event R n} (h : Session.Continues P s s') (he : e ∈ s.transcript) :
    e ∈ s'.transcript := by
  obtain ⟨es, hes, -⟩ := h
  rw [← Array.mem_toList_iff, hes]
  exact List.mem_append_left _ (Array.mem_toList_iff.2 he)

/-- What holds of all events so far and of all new ones holds of all events. -/
theorem forall_mem (h : Session.Continues P s s') (hs : ∀ e ∈ s.transcript, P e) :
    ∀ e ∈ s'.transcript, P e := by
  obtain ⟨es, hes, hP⟩ := h
  intro e he
  rw [← Array.mem_toList_iff, hes, List.mem_append, Array.mem_toList_iff] at he
  rcases he with he | he
  · exact hs e he
  · exact hP e he

theorem of_transcript_eq (h : s'.transcript = s.transcript) : Session.Continues P s s' :=
  ⟨[], by rw [h, List.append_nil], fun _ h ↦ absurd h List.not_mem_nil⟩

theorem note {e : Event R n} (he : P e) :
    Leads (Session.Continues P) (note e : SessionM σ R n Unit) := by
  intro s
  refine ⟨[e], toList_note e s, fun e' he' ↦ ?_⟩
  rw [List.mem_singleton.1 he']
  exact he

theorem outside {α : Type} (act : StateM σ α) :
    Leads (Session.Continues P) (outside act : SessionM σ R n α) :=
  fun _ ↦ of_transcript_eq rfl

theorem evaluate (env : Environment σ R n) {x : Vector R n}
    (hP : ∀ answer, P (.evaluated x answer)) : Leads (Session.Continues P) (evaluate env x) := by
  refine .bind (outside _) fun answer ↦ .bind (fun _ ↦ of_transcript_eq rfl) fun _ ↦ ?_
  exact .bind (note (hP answer)) fun _ ↦ .pure _

end Session.Continues

/-! ## Iterations -/

section Iterations

variable [Scalar R]

/-- A relation on sessions that holds across everything that an iteration does to its session. -/
structure IterationContext.Respects (it : IterationContext σ R n)
    (rel : Session σ R n → Session σ R n → Prop) : Prop where
  note : ∀ e : Event R n, e.IsRemark → Leads rel (note e)
  lookUp : ∀ x, Leads rel (it.lookUp x)
  makeDirection : ∀ level μ, Leads rel (it.makeDirection level μ)

/-- A forced step looks up one point at most. -/
theorem IterationContext.leads_force_of {rel : Session σ R n → Session σ R n → Prop}
    [IsPreorder (Session σ R n) rel] (it : IterationContext σ R n)
    (hnothing : Leads rel (note (.nothingToForce : Event R n)))
    (hforced : ∀ step level, Leads rel (note (.forced step level : Event R n)))
    (hlook : ∀ x, Leads rel (it.lookUp x)) (c : Climb R n) (reason : Termination) :
    Leads rel (it.force c reason) := by
  rw [force]
  split
  · exact .bind hnothing fun _ ↦ .pure _
  · split
    · exact .bind (hforced _ _) fun _ ↦ .pure _
    · refine .bind (hlook _) fun answer ↦ ?_
      cases answer with
      | evaluated o => exact .bind (hforced _ _) fun _ ↦ .pure _
      | rejected => exact .pure _
      | stopped => exact .bind .get fun _ ↦ .pure _

namespace IterationContext.Respects

variable {it : IterationContext σ R n} {rel : Session σ R n → Session σ R n → Prop}
    [IsPreorder (Session σ R n) rel]

theorem leads_searchAlong (h : it.Respects rel) (c : Climb R n) (d : Direction R n) :
    Leads rel (it.searchAlong c d) := by
  rw [searchAlong]
  have hsearch (task : SearchTask R n) : Leads rel (lineSearch it.lookUp task it.options.search) :=
    fun s ↦ (lookups_lineSearch _ _ _ s).rel h.lookUp
  dsimp only
  split
  · refine .bind (h.note (.lowered c.mu d.mu) trivial) fun _ ↦ .bind (hsearch _) fun r ↦ ?_
    exact .bind (h.note (.searched _ r) trivial) fun _ ↦ .pure _
  · refine .bind (hsearch _) fun r ↦ ?_
    exact .bind (h.note (.searched _ r) trivial) fun _ ↦ .pure _

/-- What the parts of an attempt do to the session, the attempt does. -/
theorem rel_attempted (h : it.Respects rel) {level : Level} {left : Nat} {c c' : Climb R n}
    {e : Option (ClimbEnd R n)} {s s' : Session σ R n}
    (hattempt : it.Attempted level left c s e c' s') : rel s s' := by
  have hmade {result : Except (DirectionError R n) (Direction R n)} {s₁ : Session σ R n}
      (hd : it.makeDirection level c.mu s = (result, s₁)) : rel s s₁ := by
    have hleads := h.makeDirection level c.mu s
    rwa [hd] at hleads
  have hsearched {d : Direction R n} {s₁ s₂ : Session σ R n} {answer : SearchResult R n × Climb R n}
      (hd : it.makeDirection level c.mu s = (.ok d, s₁))
      (hs : it.searchAlong c d s₁ = (answer, s₂)) : rel s s₂ := by
    have hleads := h.leads_searchAlong c d s₁
    rw [hs] at hleads
    exact trans_of rel (hmade hd) hleads
  cases hattempt with
  | qp hd => exact hmade hd
  | nonDescent hd => exact hmade hd
  | degenerate hd => exact hmade hd
  | moved hd hs => exact hsearched hd hs
  | stopped hd hs => exact hsearched hd hs
  | ascending hd hs => exact hsearched hd hs
  | unacceptable hd hs => exact hsearched hd hs
  | unbounded hd hs => exact hsearched hd hs
  | again hd hs => exact trans_of rel (hsearched hd hs) (h.note (.reattempted _ _ _ _) trivial _)

theorem leads_climbFrom (h : it.Respects rel) (ladder : Ladder) (c : Climb R n) :
    Leads rel (it.climbFrom ladder c) :=
  rel_climbFrom (f := fun _ s ↦ s) h.rel_attempted
    (fun _ ladder next s ↦ h.note (.failed ladder next) trivial s) ladder c

theorem leads_force (h : it.Respects rel) (c : Climb R n) (reason : Termination) :
    Leads rel (it.force c reason) :=
  it.leads_force_of (h.note _ trivial) (fun _ _ ↦ h.note _ trivial) h.lookUp c reason

/-- **What the parts of an iteration do to the session, the iteration does.** -/
theorem leads_run (h : it.Respects rel) (μ : R) : Leads rel (it.run μ) := by
  rw [run]
  refine .bind (h.leads_climbFrom _ _) fun answer ↦ ?_
  rcases answer with ⟨move | failure | reason, c⟩
  · exact .pure _
  · exact .ite (.bind (h.leads_force _ _) fun _ ↦ .pure _) (.pure _)
  · exact .pure _

end IterationContext.Respects

namespace IterationContext

/-- What an iteration may note: no record, and attempts that were made from its own context. -/
def Notes (it : IterationContext σ R n) : Event R n → Prop
  | .recorded _ => False
  | .attempted attempt => ∃ level μ g world,
      attempt = (it.toDirectionContext.attempt it.env.solve it.options level μ g world).1.1
  | _ => True

/-- A look-up notes an evaluation, and if its answer has the wrong sizes, that. -/
theorem continues_lookUp {P : Event R n → Prop} (it : IterationContext σ R n) {x : Vector R n}
    (hevaluated : ∀ answer, P (.evaluated x answer)) (hmisshapen : P .misshapen) :
    Leads (Session.Continues P) (it.lookUp x) := by
  intro s
  have hevaluate : Session.Continues P s (Session.evaluate it.env x s).2 :=
    Session.Continues.evaluate it.env hevaluated s
  rcases it.lookUp_cases x s with ⟨hlook, -⟩ | ⟨-, -, hlook | hlook⟩ <;> rw [hlook]
  · exact refl_of _ s
  · exact hevaluate
  · exact trans_of _ hevaluate (.note hmisshapen _)

theorem respects_continues (it : IterationContext σ R n) :
    it.Respects (Session.Continues it.Notes) where
  note e he := by
    refine .note ?_
    cases e <;> first | exact he.elim | trivial
  lookUp x := it.continues_lookUp (fun _ ↦ trivial) trivial
  makeDirection level μ s := ⟨[_], Array.toList_push, fun e he ↦ by
    rw [List.mem_singleton.1 he]
    exact ⟨level, μ, s.generator, s.world, rfl⟩⟩

theorem continues_run (it : IterationContext σ R n) (μ : R) :
    Leads (Session.Continues it.Notes) (it.run μ) := it.respects_continues.leads_run μ

end IterationContext

/-! ## Runs -/

namespace RunContext

variable {run : RunContext σ R n} {a : Stage σ R n} {as : List (Stage σ R n)}
    {r : RunResult R n × Session σ R n}

/-- On entering an iteration a run notes how the curvature matrix was conditioned, and the record of
the iterate. -/
theorem transcript_entered (run : RunContext σ R n) (a : Stage σ R n) :
    ∃ raised, (run.entered a).transcript.toList
      = a.session.transcript.toList ++ [.conditioned raised, .recorded (run.record a)] := by
  refine ⟨(condition run.env.eigen run.options.conditioning
    a.progress.curvature.matrix).raisedInstead, ?_⟩
  show ((a.session.transcript.push _).push _).toList = _
  rw [Array.toList_push, Array.toList_push, List.append_assoc]
  rfl

/-- What holds across the climb and the notes after it holds from the record on to the end of the
iteration. -/
theorem rel_entered {rel : Session σ R n → Session σ R n → Prop}
    [IsPreorder (Session σ R n) rel] (hrun : Leads rel ((run.climber a).run a.progress.current.mu))
    (hnote : ∀ e : Event R n, e.IsRemark → Leads rel (note e)) :
    rel (run.entered a) ((run.iterateOnce a).elim (·.session) (·.2)) := by
  have hended (μ : R) (reason : Termination) (s : Session σ R n) :
      rel s (run.ending a μ reason s).2 := hnote (.ended _ _ _ _) trivial s
  have hclimb := hrun (run.entered a)
  have hiteration := run.iteration_iterateOnce a
  rcases hresult : run.iterateOnce a with b | r <;> rw [hresult] at hiteration
  · cases hiteration with
    | moved _ _ _ hmoved =>
      rw [hmoved] at hclimb
      exact trans_of rel hclimb (hnote (.updated _ _) trivial _)
  · cases hiteration with
    | tested _ => exact hended _ _ _
    | spent _ _ => exact hended _ _ _
    | exhausted _ _ _ => exact hended _ _ _
    | failed _ _ _ hfailed =>
      rw [hfailed] at hclimb
      exact trans_of rel hclimb (hended _ _ _)

/-- What holds across the entry, the climb and the notes after it holds across the iteration. -/
theorem rel_iterateOnce {rel : Session σ R n → Session σ R n → Prop}
    [IsPreorder (Session σ R n) rel] (hentered : rel a.session (run.entered a))
    (hrun : Leads rel ((run.climber a).run a.progress.current.mu))
    (hnote : ∀ e : Event R n, e.IsRemark → Leads rel (note e)) :
    rel a.session ((run.iterateOnce a).elim (·.session) (·.2)) :=
  trans_of rel hentered (rel_entered hrun hnote)

/-- After the record of its iterate an iteration records nothing. -/
theorem continues_entered (run : RunContext σ R n) (a : Stage σ R n) :
    Session.Continues (·.isRecorded = false) (run.entered a)
      ((run.iterateOnce a).elim (·.session) (·.2)) := by
  refine rel_entered (fun s ↦ ?_) fun e he ↦ .note ?_
  · refine ((run.climber a).continues_run _ s).mono fun e he ↦ ?_
    cases e <;> first | rfl | exact he.elim
  · cases e <;> first | rfl | exact he.elim

/-- Every attempt that an iteration notes was made from its context. -/
theorem continues_iterateOnce (run : RunContext σ R n) (a : Stage σ R n) :
    Session.Continues (fun e ↦ ∀ attempt, e = .attempted attempt → (run.climber a).Notes e)
      a.session ((run.iterateOnce a).elim (·.session) (·.2)) := by
  refine rel_iterateOnce ?_ (fun s ↦ ?_) fun e he ↦ .note ?_
  · obtain ⟨raised, hentered⟩ := run.transcript_entered a
    refine ⟨_, hentered, fun e he attempt hattempt ↦ ?_⟩
    subst hattempt
    simp at he
  · exact ((run.climber a).continues_run _ s).mono fun e he _ _ ↦ he
  · rintro attempt rfl
    exact he.elim

/-- The transcript of a run continues those of all its stages. -/
theorem continues_of_path (hpath : Path run.iterateOnce (a :: as) r) {b : Stage σ R n}
    (hb : b ∈ a :: as) : Session.Continues (fun _ ↦ True) b.session r.2 :=
  (hpath.rel (f := (·.session)) (g := (·.2))
    (fun b _ ↦ (run.continues_iterateOnce b).mono fun _ _ ↦ trivial) b hb).2

/-- The transcript of a run continues those of all its stages with their records. -/
theorem continues_entered_of_path (hpath : Path run.iterateOnce (a :: as) r) {b : Stage σ R n}
    (hb : b ∈ a :: as) : Session.Continues (fun _ ↦ True) (run.entered b) r.2 := by
  have hstage (b : Stage σ R n) : Session.Continues (fun _ ↦ True) (run.entered b)
      ((run.iterateOnce b).elim run.entered (·.2)) := by
    have hcontinues := (run.continues_entered b).mono (Q := fun _ ↦ True) fun _ _ ↦ trivial
    rcases hnext : run.iterateOnce b with c | r <;> rw [hnext] at hcontinues
    · obtain ⟨raised, hentered⟩ := run.transcript_entered c
      have henter : Session.Continues (fun _ ↦ True) c.session (run.entered c) :=
        ⟨_, hentered, fun _ _ ↦ trivial⟩
      exact trans_of _ hcontinues henter
    · exact hcontinues
  exact (hpath.rel (f := run.entered) (g := (·.2)) (fun b _ ↦ hstage b) b hb).2

/-- **What is noted between the records of one stage and of the next**, and where. -/
theorem exists_between (hpath : Path run.iterateOnce (a :: as) r) {b c : Stage σ R n}
    (hc : c ∈ a :: as) (hbc : run.iterateOnce b = .inl c) :
    ∃ before between after : List (Event R n),
      r.2.transcript.toList
        = before ++ .recorded (run.record b) :: between ++ .recorded (run.record c) :: after ∧
      (∀ e ∈ between, e.isRecorded = false) ∧
      (run.entered b).transcript.toList = before ++ [.recorded (run.record b)] ∧
      (run.entered c).transcript.toList
        = before ++ .recorded (run.record b) :: between ++ [.recorded (run.record c)] := by
  obtain ⟨raised, hb⟩ := run.transcript_entered b
  obtain ⟨raised', hc'⟩ := run.transcript_entered c
  have hcontinues := run.continues_entered b
  rw [hbc] at hcontinues
  obtain ⟨events, hevents, hrecorded⟩ := hcontinues
  obtain ⟨after, hafter, -⟩ := continues_entered_of_path hpath hc
  refine ⟨b.session.transcript.toList ++ [.conditioned raised], events ++ [.conditioned raised'],
    after, ?_, fun e he ↦ ?_, ?_, ?_⟩
  · rw [Sum.elim_inl] at hevents
    rw [hafter, hc', hevents, hb]
    simp
  · rcases List.mem_append.1 he with he | he
    · exact hrecorded e he
    · rw [List.mem_singleton.1 he]
      rfl
  · rw [hb]
    simp
  · rw [Sum.elim_inl] at hevents
    rw [hc', hevents, hb]
    simp

/-- **What is noted after the last record**, and where. -/
theorem exists_last_record (h : run.iterateOnce a = .inr r) :
    r.1.history.back? = some (run.record a) ∧ ∃ before events : List (Event R n),
      r.2.transcript.toList = before ++ .recorded (run.record a) :: events ∧
      (∀ e ∈ events, e.isRecorded = false) ∧
      r.2.transcript.toList = (run.entered a).transcript.toList ++ events := by
  obtain ⟨raised, hentered⟩ := run.transcript_entered a
  have hcontinues := run.continues_entered a
  rw [h, Sum.elim_inr] at hcontinues
  obtain ⟨events, hevents, hrecorded⟩ := hcontinues
  obtain ⟨μ, reason, s, rfl⟩ := exists_ending h
  refine ⟨Array.back?_push, a.session.transcript.toList ++ [.conditioned raised], events, ?_,
    hrecorded, hevents⟩
  rw [hevents, hentered]
  simp

/-- **Every attempt in the transcript of a run was made from the context of one of its
iterations.** -/
theorem exists_climber_of_attempted (hpath : Path run.iterateOnce (a :: as) r)
    (hstart : ∀ attempt, .attempted attempt ∉ a.session.transcript)
    {attempt : DirectionAttempt R n} (hmem : .attempted attempt ∈ r.2.transcript) :
    ∃ b ∈ a :: as, (run.climber b).Notes (.attempted attempt) := by
  let Made (e : Event R n) : Prop :=
    ∀ attempt, e = .attempted attempt → ∃ b ∈ a :: as, (run.climber b).Notes e
  have hcontinues : Session.Continues Made a.session r.2 :=
    (hpath.rel (f := (·.session)) (g := (·.2)) (fun b hb ↦ (run.continues_iterateOnce b).mono
      fun e he attempt hattempt ↦ ⟨b, hb, he attempt hattempt⟩) a List.mem_cons_self).2
  refine hcontinues.forall_mem (fun e he attempt hattempt ↦ ?_) _ hmem attempt rfl
  exact absurd (hattempt ▸ he) (hstart attempt)

/-! ## One thing at a time -/

/-- A relation on sessions that holds across every single thing that a run does to its session. -/
structure Respects (run : RunContext σ R n) (rel : Session σ R n → Session σ R n → Prop) : Prop where
  note : ∀ e : Event R n, e.isEvaluated = false → Leads rel (note e)
  /-- An evaluation within the budget. -/
  evaluate : ∀ x s, run.exhausted? s = none → rel s (evaluate run.env x s).2
  solve : ∀ {m : Nat} (qp : QuadraticProgram R m) (s : Session σ R n),
    rel s { s with world := (run.env.solve qp s.world).2 }
  /-- A draw of random numbers. -/
  draw : ∀ (s : Session σ R n) (g : Generator), rel s { s with generator := g }

namespace Respects

variable {rel : Session σ R n → Session σ R n → Prop} [IsPreorder (Session σ R n) rel]

omit [Scalar R] in
/-- An action that touches the world by quadratic programs only. -/
theorem outside (h : run.Respects rel) {α : Type} {act : StateM σ α}
    (hact : ∀ (relWorld : σ → σ → Prop) [IsPreorder σ relWorld],
      (∀ {m : Nat} (qp : QuadraticProgram R m), Leads relWorld (run.env.solve qp)) →
        Leads relWorld act) : Leads rel (outside act) := by
  let relWorld (w w' : σ) : Prop :=
    ∀ s : Session σ R n, s.world = w → rel s { s with world := w' }
  have hpreorder : IsPreorder σ relWorld :=
    { refl := fun w s hs ↦ hs ▸ refl_of rel s
      trans := fun w₁ w₂ w₃ h₁ h₂ s hs ↦ trans_of rel (h₁ s hs) (h₂ { s with world := w₂ } rfl) }
  have hsolve {m : Nat} (qp : QuadraticProgram R m) : Leads relWorld (run.env.solve qp) :=
    fun w s hs ↦ hs ▸ h.solve qp s
  exact fun s ↦ hact relWorld hsolve s.world s rfl

theorem iteration (it : IterationContext σ R n) (h : it.toRunContext.Respects rel) :
    it.Respects rel where
  note e he := h.note e (Event.isEvaluated_of_isRemark he)
  lookUp x := by
    intro s
    rcases it.lookUp_cases x s with ⟨hlook, -⟩ | ⟨hwithin, -, hlook | hlook⟩ <;> rw [hlook]
    · exact refl_of rel s
    · exact h.evaluate x s hwithin
    · exact trans_of rel (h.evaluate x s hwithin) (h.note .misshapen rfl _)
  makeDirection level μ := by
    refine .bind .get fun s ↦ .bind ?_ fun answer ↦ ?_
    · exact h.outside fun _ _ hsolve ↦
        it.toDirectionContext.leads_attempt hsolve it.options level μ s.generator
    · refine .bind (fun s ↦ h.draw s _) fun _ ↦ ?_
      exact .bind (h.note _ rfl) fun _ ↦ .pure _

theorem entered (h : run.Respects rel) (a : Stage σ R n) : rel a.session (run.entered a) := by
  have henter : Leads rel (run.enter a.progress) := by
    refine .bind (h.note _ rfl) fun _ ↦ .bind ?_ fun stationarity ↦ ?_
    · exact h.outside fun _ _ hsolve ↦ GradientBundle.leads_measure hsolve _ _ _ _
    · exact .bind (h.note _ rfl) fun _ ↦ .pure _
  exact henter a.session

/-- **What every single thing does to the session, the run does.** -/
theorem rel_of_path (h : run.Respects rel) (hpath : Path run.iterateOnce (a :: as) r)
    {b : Stage σ R n} (hb : b ∈ a :: as) : rel a.session b.session ∧ rel b.session r.2 :=
  hpath.rel (f := (·.session)) (g := (·.2)) (fun c _ ↦ rel_iterateOnce (h.entered c)
    ((iteration (run.climber c) h).leads_run _)
    fun e he ↦ h.note e (Event.isEvaluated_of_isRemark he)) b hb

end Respects

end RunContext

end Iterations

end ExactPenalty
