import ExactPenalty.Proofs.Relabelling
import ExactPenalty.Proofs.Run.Answers
import ExactPenalty.Proofs.Run.InStep

/-!
# Runs under other names

Two runs are compared that differ in their ladders only.  They need not be in the same world; what has to
be the same is what they are told of it (`Environment.AnswersAlike`), and programs over boxes are left out
of this, because steering alone asks for their solutions.

As long as an iteration does not steer, all of its parts do the same in both runs, under other names of the
rungs: look-ups, searches, attempts, and the rounds of climbs whose ladders lead to the same rungs
(`Ladder.ClimbsAlike`).  Whole runs have the same result under other names if every iteration makes the
same step (`Environment.AnswersAlike.minimize_relabelled`).  Whether it does depends on the start of its
ladder, and that is left open here.
-/

set_option autoImplicit false

namespace ExactPenalty

open Session ExactPenalty.Action

variable {σ R : Type} {n : Nat} {same : σ → σ → Prop}

/-! ## What a run is told of its world -/

/-- Related worlds tell a run the same, and go on to related worlds; but nothing is said of programs over
boxes. -/
structure Environment.AnswersAlike (env : Environment σ R n) (seconds : Option Nat)
    (same : σ → σ → Prop) : Prop where
  evaluate : ∀ x, Mirrors same id (env.evaluate x) (env.evaluate x)
  simplex : ∀ {m : Nat} (p : QuadraticProgram R m), p.feasible = .simplex →
    Mirrors same id (env.solve p) (env.solve p)
  /-- The time limit is reached in both worlds, or in neither. -/
  belowCap : ∀ w w', same w w' → (BelowCap (env.elapsed w') seconds ↔ BelowCap (env.elapsed w) seconds)

/-- The same world tells the same. -/
theorem Environment.answersAlike_eq (env : Environment σ R n) (seconds : Option Nat) :
    env.AnswersAlike seconds Eq where
  evaluate _ := by rintro w _ rfl; exact ⟨rfl, rfl⟩
  simplex _ _ := by rintro w _ rfl; exact ⟨rfl, rfl⟩
  belowCap := by rintro w _ rfl; rfl

/-- The sessions agree in all but their transcripts, as far as a run can tell. -/
structure Session.Alike (same : σ → σ → Prop) (s t : Session σ R n) : Prop where
  world : same s.world t.world
  evaluations : t.evaluations = s.evaluations
  generator : t.generator = s.generator

namespace Session.Alike

theorem mirrors_note (e e' : Event R n) : Mirrors (Alike same) id (note e) (note e') :=
  fun _ _ h ↦ ⟨rfl, h.world, h.evaluations, h.generator⟩

theorem mirrors_outside {α β : Type} {f : α → β} {x : StateM σ α} {y : StateM σ β}
    (hxy : Mirrors same f x y) : Mirrors (Alike same) f (outside (n := n) (R := R) x) (outside y) := by
  intro s t h
  obtain ⟨hanswer, hworld⟩ := hxy s.world t.world h.world
  exact ⟨hanswer, hworld, h.evaluations, h.generator⟩

theorem mirrors_evaluate {env : Environment σ R n} (x : Vector R n)
    (hx : Mirrors same id (env.evaluate x) (env.evaluate x)) :
    Mirrors (Alike same) id (evaluate env x) (evaluate env x) := by
  refine (mirrors_outside hx).bind fun answer ↦ ?_
  refine .bind (f := id) (fun s t h ↦ ⟨rfl, h.world, ?_, h.generator⟩) fun _ ↦ ?_
  · exact congrArg (· + 1) h.evaluations
  · exact (mirrors_note _ _).bind fun _ ↦ .pure rfl

end Session.Alike

variable [Scalar R]

/-- Searches give the same results if their look-ups give the same answers. -/
theorem Action.Mirrors.lineSearch {S T : Type} {rel : S → T → Prop} {ask : Oracle S R n}
    {ask' : Oracle T R n} (hask : ∀ x, Mirrors rel id (ask x) (ask' x)) (task : SearchTask R n)
    (o : SearchOptions R) : Mirrors rel id (lineSearch ask task o) (lineSearch ask' task o) :=
  mirrors_id_iff.2 <| inStep_lineSearch (fun x ↦ mirrors_id_iff.1 (hask x)) (fun _ h ↦ h.elim) task o

/-! ## Other ladders -/

/-- The run with another range of permitted rungs. -/
def RunContext.withLadder (run : RunContext σ R n) (o : LadderOptions) : RunContext σ R n :=
  { run with options := { run.options with ladder := o } }

@[inherit_doc RunContext.withLadder]
def IterationContext.withLadder (it : IterationContext σ R n) (o : LadderOptions) :
    IterationContext σ R n :=
  { it with toRunContext := it.toRunContext.withLadder o }

/-- Related ladders are at the same rung under other names, which does not steer under either name; and
their failures lead to related ladders, or exhaust both of them. -/
structure Ladder.ClimbsAlike (ρ : Relabelling) (engaged : Bool) (rel : Ladder → Ladder → Prop) :
    Prop where
  level_eq : ∀ {l l'}, rel l l' → l'.level = ρ l.level
  plain : ∀ {l l'}, rel l l' → (engaged && l.level.usesSteering) = false
  plain_relabelled : ∀ {l l'}, rel l l' → (engaged && (ρ l.level).usesSteering) = false
  exhausted_iff : ∀ {l l'}, rel l l' → (l'.next = .exhausted ↔ l.next = .exhausted)
  climb : ∀ {l l'}, rel l l' → l.next ≠ .exhausted → rel l.climb.2 l'.climb.2

/-- Two climbs are about to make the same attempt. -/
structure ClimbStage.Relabels (ρ : Relabelling) (rel : Ladder → Ladder → Prop) (same : σ → σ → Prop)
    (a b : ClimbStage σ R n) : Prop where
  ladder : rel a.ladder b.ladder
  left : b.left = a.left
  climb : b.climb = a.climb.relabelled ρ
  session : a.session.Alike same b.session

namespace Environment.AnswersAlike

/-! ## Look-ups -/

section LookUps

variable {run : RunContext σ R n} (h : run.env.AnswersAlike run.options.budget.seconds same)
include h

omit [Scalar R] in
theorem exhausted?_eq {s t : Session σ R n} (hst : s.Alike same t) :
    run.exhausted? t = run.exhausted? s := by
  rw [RunContext.exhausted?, RunContext.exhausted?, hst.evaluations]
  simp only [h.belowCap _ _ hst.world]

omit [Scalar R] in
theorem stopReason_eq {s t : Session σ R n} (hst : s.Alike same t) :
    run.stopReason t = run.stopReason s := by
  rw [RunContext.stopReason, RunContext.stopReason, h.exhausted?_eq hst]

theorem mirrors_lookUp (x : Vector R n) :
    Mirrors (Session.Alike same) id (run.lookUp x) (run.lookUp x) := by
  intro s t hst
  rw [RunContext.lookUp, bind_apply, bind_apply, get_apply, get_apply]
  dsimp only
  rw [h.exhausted?_eq hst]
  split_ifs
  · exact ⟨rfl, hst⟩
  · refine (Session.Alike.mirrors_evaluate x (h.evaluate x)).bind (fun answer ↦ ?_) s t hst
    rw [id]
    cases run.shaped? x answer with
    | none => exact (Session.Alike.mirrors_note _ _).bind fun _ ↦ .pure rfl
    | some o => exact .pure rfl

end LookUps

variable (ρ : Relabelling)

section Iterations

variable {it : IterationContext σ R n} (h : it.env.AnswersAlike it.options.budget.seconds same)
include h

/-! ## Attempts -/

omit h in
/-- **A rung that does not steer makes the same direction under another name.** -/
theorem mirrors_makeDirection {level : Level} (hplain : (it.engaged && level.usesSteering) = false)
    (hplain' : (it.engaged && (ρ level).usesSteering) = false) (μ : R) :
    Mirrors (Session.Alike same) (DirectionAttempt.resultRelabelled ρ) (it.makeDirection level μ)
      (it.makeDirection (ρ level) μ) := by
  refine .get_bind fun s t hst ↦ ?_
  rw [hst.generator, DirectionContext.attempt_eq_unsteered hplain,
    DirectionContext.attempt_eq_unsteered hplain', DirectionContext.unsteered_relabelled]
  exact ⟨it.toDirectionContext.result_concluded_relabelled ρ _ _ _, hst.world, hst.evaluations, rfl⟩

theorem mirrors_searchAlong (c : Climb R n) (d : Direction R n) :
    Mirrors (Session.Alike same) (Prod.map id (Climb.relabelled ρ)) (it.searchAlong c d)
      (it.searchAlong (c.relabelled ρ) (d.relabelled ρ)) := by
  have hlowers : decide ((d.relabelled ρ).mu < (c.relabelled ρ).mu) = decide (d.mu < c.mu) := rfl
  have hsearch (c : Climb R n) : Mirrors (Session.Alike same) (Prod.map id (Climb.relabelled ρ))
      (do
        let result ← lineSearch it.lookUp (it.task c d) it.options.search
        note (.searched (it.task c d) result)
        return (result, c))
      (do
        let result ← lineSearch it.lookUp (it.task c d) it.options.search
        note (.searched (it.task c d) result)
        return (result, c.relabelled ρ)) :=
    (Mirrors.lineSearch h.mirrors_lookUp (it.task c d) it.options.search).bind fun result ↦
      (Session.Alike.mirrors_note _ _).bind fun _ ↦ .pure rfl
  rw [IterationContext.searchAlong, IterationContext.searchAlong]
  dsimp only
  rw [hlowers]
  split_ifs
  · exact (Session.Alike.mirrors_note _ _).bind fun _ ↦ hsearch { c with mu := d.mu }
  · exact hsearch c

/-- **An attempt at a rung that does not steer does the same under another name.** -/
theorem mirrors_tryOnce {level : Level} (hplain : (it.engaged && level.usesSteering) = false)
    (hplain' : (it.engaged && (ρ level).usesSteering) = false) (left : Nat) (c : Climb R n) :
    Mirrors (Session.Alike same) (Prod.map (Option.map (ClimbEnd.relabelled ρ)) (Climb.relabelled ρ))
      (it.tryOnce level left c) (it.tryOnce (ρ level) left (c.relabelled ρ)) := by
  rw [IterationContext.tryOnce, IterationContext.tryOnce]
  refine (mirrors_makeDirection ρ hplain hplain' c.mu).bind fun attempt ↦ ?_
  rcases attempt with (e | d | _) | d
  · exact .pure rfl
  · exact .pure rfl
  · exact .pure rfl
  refine (h.mirrors_searchAlong ρ c d).bind fun answer ↦ ?_
  rcases answer with ⟨e | out, c'⟩
  · dsimp only [Prod.map, id]
    cases e.reason with
    | notBracketed t =>
      dsimp only
      split_ifs
      · exact (Session.Alike.mirrors_note _ _).bind fun _ ↦ .pure rfl
      · exact .pure rfl
    | wolfeNotSatisfied l u => exact .pure rfl
    | armijoNotSatisfied => exact .pure rfl
    | nonDescent => exact .pure rfl
    | budgetExhausted =>
      refine .get_bind fun s t hst ↦ ⟨?_, hst⟩
      exact congrArg (fun reason ↦ (some (ClimbEnd.stopped reason), (c'.searched d e).relabelled ρ))
        (h.stopReason_eq hst)
  · exact .pure rfl

/-! ## Climbs -/

/-- Rounds of two climbs are the same. -/
theorem together_climbRound {rel : Ladder → Ladder → Prop}
    (hladders : Ladder.ClimbsAlike ρ it.engaged rel) (a b : ClimbStage σ R n)
    (hab : a.Relabels ρ rel same b) :
    Together (ClimbStage.Relabels ρ rel same)
      (Mirrored (Session.Alike same) (Prod.map (ClimbEnd.relabelled ρ) (Climb.relabelled ρ)))
      (it.climbRound a) (it.climbRound b) := by
  have hmirror := h.mirrors_tryOnce ρ (hladders.plain hab.ladder)
    (hladders.plain_relabelled hab.ladder) a.left a.climb a.session b.session hab.session
  rw [IterationContext.climbRound, IterationContext.climbRound, hladders.level_eq hab.ladder, hab.left,
    hab.climb]
  rcases ha : it.tryOnce a.ladder.level a.left a.climb a.session with ⟨⟨e, c⟩, s⟩
  rcases hb : it.tryOnce (ρ a.ladder.level) a.left (a.climb.relabelled ρ) b.session with ⟨⟨e', c'⟩, t⟩
  rw [ha, hb] at hmirror
  obtain ⟨hanswer, hstate⟩ := hmirror
  cases hanswer
  rcases e with _ | move | failure | reason
  · exact .next ⟨hab.ladder, rfl, rfl, hstate⟩
  · exact .done ⟨rfl, hstate⟩
  · have hnoted : (note (.failed a.ladder a.ladder.next) s).2.Alike same
        (note (.failed b.ladder b.ladder.next) t).2 := (Session.Alike.mirrors_note _ _ s t hstate).2
    dsimp only [Prod.map, Option.map, ClimbEnd.relabelled]
    rw [if_congr (hladders.exhausted_iff hab.ladder) rfl rfl]
    split_ifs with hnext
    · exact .done ⟨rfl, hnoted⟩
    · exact .next ⟨hladders.climb hab.ladder hnext, rfl, rfl, hnoted⟩
  · exact .done ⟨rfl, hstate⟩

/-- **Climbs whose ladders are climbed alike end alike.** -/
theorem mirrors_climbFrom {rel : Ladder → Ladder → Prop}
    (hladders : Ladder.ClimbsAlike ρ it.engaged rel) {l l' : Ladder} (hl : rel l l')
    (o : LadderOptions) (c : Climb R n) :
    Mirrors (Session.Alike same) (Prod.map (ClimbEnd.relabelled ρ) (Climb.relabelled ρ))
      (it.climbFrom l c) ((it.withLadder o).climbFrom l' (c.relabelled ρ)) := fun s t hst ↦
  Ends.together (h.together_climbRound ρ hladders) (it.ends_climbFrom l c s)
    ((it.withLadder o).ends_climbFrom l' (c.relabelled ρ) t) ⟨hl, rfl, rfl, hst⟩

/-! ## Iterations -/

theorem mirrors_force (c : Climb R n) (reason : Termination) :
    Mirrors (Session.Alike same) (Except.map (Move.relabelled ρ)) (it.force c reason)
      (it.force (c.relabelled ρ) reason) := by
  rw [IterationContext.force, IterationContext.force, Climb.relabelled]
  cases c.lastDirection with
  | none => exact (Session.Alike.mirrors_note _ _).bind fun _ ↦ .pure rfl
  | some d =>
    dsimp only [Option.map]
    cases c.lastTrial with
    | some trial => exact (Session.Alike.mirrors_note _ _).bind fun _ ↦ .pure rfl
    | none =>
      refine (h.mirrors_lookUp _).bind fun answer ↦ ?_
      cases answer with
      | evaluated o => exact (Session.Alike.mirrors_note _ _).bind fun _ ↦ .pure rfl
      | rejected => exact .pure rfl
      | stopped =>
        exact .get_bind fun s t hst ↦ ⟨congrArg Except.error (h.stopReason_eq hst), hst⟩

/-- **Iterations make the same step if their climbs end alike.** -/
theorem mirrors_run (o : LadderOptions) (μ : R)
    (hclimb : Mirrors (Session.Alike same) (Prod.map (ClimbEnd.relabelled ρ) (Climb.relabelled ρ))
      (it.climbFrom (.start it.options.ladder it.engaged) (.start μ))
      ((it.withLadder o).climbFrom (.start o it.engaged) (.start μ))) :
    Mirrors (Session.Alike same) (Prod.map (Except.map (Move.relabelled ρ)) id) (it.run μ)
      ((it.withLadder o).run μ) := by
  rw [IterationContext.run, IterationContext.run]
  refine hclimb.bind fun answer ↦ ?_
  rcases answer with ⟨move | failure | reason, c⟩
  · exact .pure rfl
  · have hforces : (it.withLadder o).options.forceMovement = it.options.forceMovement := rfl
    dsimp only [Prod.map, ClimbEnd.relabelled]
    rw [hforces]
    split_ifs
    · exact (h.mirrors_force ρ c _).bind fun answer ↦ .pure rfl
    · exact .pure rfl
  · exact .pure rfl

/-- So they do if their ladders are climbed alike from the start. -/
theorem mirrors_run_of_start {rel : Ladder → Ladder → Prop}
    (hladders : Ladder.ClimbsAlike ρ it.engaged rel) {o : LadderOptions}
    (hstart : rel (.start it.options.ladder it.engaged) (.start o it.engaged)) (μ : R) :
    Mirrors (Session.Alike same) (Prod.map (Except.map (Move.relabelled ρ)) id) (it.run μ)
      ((it.withLadder o).run μ) :=
  h.mirrors_run ρ o μ (h.mirrors_climbFrom ρ hladders hstart o (.start μ))

end Iterations

/-! ## Whole runs -/

section Runs

variable {run : RunContext σ R n} (h : run.env.AnswersAlike run.options.budget.seconds same)
    {o : LadderOptions}
include h

/-- Stationarity is measured by programs over the simplex. -/
theorem mirrors_measure (b : GradientBundle R n) (it : Iterate R n) (m : Mat R n n)
    (radius : Extended R) : Mirrors same id (b.measure run.env.solve it m radius)
      (b.measure run.env.solve it m radius) := by
  rw [GradientBundle.measure]
  cases b.nearby it radius with
  | nil => exact .pure rfl
  | cons g others =>
    refine (h.simplex _ rfl).bind fun answer ↦ ?_
    cases answer with
    | error e => exact .pure rfl
    | ok weights => exact .pure rfl

omit h [Scalar R] in
theorem mirrors_finish (p : Progress R n) (last : IterationRecord R n) (μ : R)
    (reason : Termination) :
    Mirrors (Session.Alike (n := n) same) (RunResult.relabelled ρ)
      (RunContext.finish p last μ reason)
      (RunContext.finish (p.relabelled ρ) (last.relabelled ρ) μ reason) := by
  rw [RunContext.finish, RunContext.finish]
  refine .get_bind fun s t hst ↦ ?_
  rw [hst.evaluations]
  exact ((Session.Alike.mirrors_note _ _).bind (g := RunResult.relabelled ρ) fun _ ↦ .pure rfl)
    s t hst

theorem mirrors_enter (p : Progress R n) :
    Mirrors (Session.Alike same)
      (Prod.map id (Prod.map (IterationRecord.relabelled ρ) (Progress.relabelled ρ)))
      (run.enter p) ((run.withLadder o).enter (p.relabelled ρ)) := by
  have hhistory (record : IterationRecord R n) :
      { p.relabelled ρ with history := (p.relabelled ρ).history.push (record.relabelled ρ) }
        = ({ p with history := p.history.push record } : Progress R n).relabelled ρ :=
    congrArg (fun history ↦ { p.relabelled ρ with history }) Array.map_push.symm
  rw [RunContext.enter, RunContext.enter]
  refine (Session.Alike.mirrors_note _ _).bind fun _ ↦
    (Session.Alike.mirrors_outside (h.mirrors_measure _ _ _ _)).bind fun stationarity ↦
      (Session.Alike.mirrors_note _ _).bind fun _ ↦ .pure ?_
  exact Prod.ext rfl (Prod.ext rfl (hhistory (p.record stationarity)))

/-- **Runs from the same state come to the same result under other names**, if every iteration makes
the same step at iterates of the shape of the problem. -/
theorem mirrors_iterateFrom
    (hrun : ∀ (p : Progress R n) (m : Mat R n n), p.current.shape = run.shape →
      Mirrors (Session.Alike same) (Prod.map (Except.map (Move.relabelled ρ)) id)
        ((run.iteration p m).run p.current.mu)
        (((run.iteration p m).withLadder o).run p.current.mu))
    (left : Nat) (p : Progress R n) (hshape : p.current.shape = run.shape) :
    Mirrors (Session.Alike same) (RunResult.relabelled ρ) (run.iterateFrom left p)
      ((run.withLadder o).iterateFrom left (p.relabelled ρ)) := by
  -- the last iteration differs from the others in its end only, so they are not told apart before
  induction left using Nat.strong_induction_on generalizing p with
  | _ left ih =>
    rw [RunContext.iterateFrom.eq_def, RunContext.iterateFrom.eq_def]
    dsimp only
    rw [p.back?_history_relabelled]
    refine (h.mirrors_enter ρ p).bind_of_answer fun entered s₀ _ hentered ↦ ?_
    obtain ⟨m, record, p'⟩ := entered
    have hcurrent : p'.current = p.current := (congrArg (·.1.2.2.current) hentered).symm
    have hsame : (p'.relabelled ρ).current = p'.current := rfl
    have hstationarity : (record.relabelled ρ).stationarity = record.stationarity := rfl
    have hstopping : (run.withLadder o).options.stopping = run.options.stopping := rfl
    dsimp only [Prod.map, id]
    rw [hsame, hstationarity, hstopping]
    cases stoppingTest run.options.stopping (p.history.back?.map (·.iterate)) p'.current
      record.stationarity.value with
    | some reason => exact mirrors_finish ρ p' record p'.current.mu reason
    | none =>
      cases left with
      | zero => exact mirrors_finish ρ p' record p'.current.mu .maxIterations
      | succ left =>
        refine .get_bind fun s t hst ↦ ?_
        have hexhausted : (run.withLadder o).exhausted? t = run.exhausted? s := h.exhausted?_eq hst
        rw [hexhausted]
        cases run.exhausted? s with
        | some reason => exact mirrors_finish ρ p' record p'.current.mu reason s t hst
        | none =>
          refine (hrun p' m (hcurrent ▸ hshape)).bind_of_answer (fun answer s₁ s₂ hmove ↦ ?_) s t hst
          obtain ⟨reason | move, μ⟩ := answer
          · exact mirrors_finish ρ p' record μ reason
          · obtain ⟨_, -, -, htarget, -⟩ := IterationContext.answered_of_run_eq_ok hmove
            exact (Session.Alike.mirrors_note _ _).bind fun _ ↦
              ih left (Nat.lt_succ_self left) _ htarget

end Runs

end Environment.AnswersAlike

section Minimize

variable {env : Environment σ R n} {options : Options R} {x₀ : Vector R n} {o : LadderOptions}
    {world world' : σ}

/-- **A run with another ladder has the same result under other names**, if every iteration makes the
same step at iterates of the shape of the first one. -/
theorem Environment.AnswersAlike.minimize_relabelled (ρ : Relabelling)
    (henv : env.AnswersAlike options.budget.seconds same) (hworld : same world world')
    (hoptions : options.IsValid) (ho : ({ options with ladder := o } : Options R).IsValid)
    (hrun : ∀ (shape : Nat × Nat) (p : Progress R n) (m : Mat R n n),
      ((env.evaluate x₀ world).1.toObservation? x₀).map (·.shape) = some shape →
      p.current.shape = shape →
        Mirrors (Session.Alike same) (Prod.map (Except.map (Move.relabelled ρ)) id)
          ((RunContext.iteration ⟨env, options, shape⟩ p m).run p.current.mu)
          (((RunContext.iteration ⟨env, options, shape⟩ p m).withLadder o).run p.current.mu)) :
    (minimize env { options with ladder := o } x₀ world').1
      = (minimize env options x₀ world).1.map (RunResult.relabelled ρ) := by
  let start (w : σ) : Session σ R n := .start (env.generator options.seed) w
  obtain ⟨hanswer, hsessions⟩ := Session.Alike.mirrors_evaluate x₀ (henv.evaluate x₀)
    (start world) (start world') ⟨hworld, rfl, rfl⟩
  show (runFrom env _ x₀ (start world')).1 = (runFrom env options x₀ (start world)).1.map _
  rw [runFrom, runFrom, Options.validate_eq_ok_iff.2 ⟨rfl, hoptions⟩,
    Options.validate_eq_ok_iff.2 ⟨rfl, ho⟩]
  dsimp only
  split_ifs
  · rfl
  rw [bind_apply, bind_apply, hanswer, id]
  cases hfirst : (Session.evaluate env x₀ (start world)).1.toObservation? x₀ with
  | none => rfl
  | some first =>
    have hshape : ((env.evaluate x₀ world).1.toObservation? x₀).map (·.shape) = some first.shape :=
      congrArg (Option.map (·.shape)) hfirst
    dsimp only
    split_ifs
    · have hiterates : Mirrors (Session.Alike same) (RunResult.relabelled ρ)
          (RunContext.iterateFrom ⟨env, options, first.shape⟩ options.stopping.maxIterations
            (.start options first))
          (RunContext.iterateFrom ⟨env, { options with ladder := o }, first.shape⟩
            options.stopping.maxIterations ((Progress.start options first).relabelled ρ)) :=
        mirrors_iterateFrom ρ henv (fun p m ↦ hrun first.shape p m hshape) _ _ rfl
      rw [Progress.start_relabelled] at hiterates
      refine ((Session.Alike.mirrors_note _ _).bind (fun _ ↦ ?_) _ _ hsessions).1
      exact hiterates.bind fun result ↦ .pure rfl
    · rfl

end Minimize

end ExactPenalty
