import ExactPenalty.Proofs.Evaluation
import ExactPenalty.Proofs.Options
import ExactPenalty.Proofs.Run.Climb
import ExactPenalty.Run

/-!
# A run, iteration by iteration

`RunContext.iterateOnce` makes one iteration: from a `Stage`, the state at which the iteration begins,
to the next stage, or to the result of the run.  `minimize_eq_ok` says that a run that yields a result
passes stages on its way there, from a first one that the answer at the starting point determines, and
that its history holds the records of these stages in their order.

What is proved about all iterates of a run is proved by `RunContext.Iteration`, which lists what an
iteration can do, and from there by `Path.forall_mem` or `Path.isChain_and`.
-/

set_option autoImplicit false

namespace ExactPenalty

open Session ExactPenalty.Action

variable {σ R : Type} [Scalar R] {n : Nat}

/-- A run at the start of an iteration. -/
structure Stage (σ R : Type) (n : Nat) where
  /-- The iterations that may follow. -/
  left : Nat
  progress : Progress R n
  session : Session σ R n

namespace RunContext

variable {run : RunContext σ R n} {a b : Stage σ R n}

/-! ## Entering an iteration -/

/-- The conditioned curvature matrix of a stage: the one that the quadratic programs get. -/
def conditioned (run : RunContext σ R n) (a : Stage σ R n) : Mat R n n :=
  (condition run.env.eigen run.options.conditioning a.progress.curvature.matrix).matrix

/-- The stationarity that is measured at a stage. -/
def stationarity (run : RunContext σ R n) (a : Stage σ R n) : Stationarity R :=
  (a.progress.bundle.measure run.env.solve a.progress.current (run.conditioned a)
    run.options.bundle.radius a.session.world).1

/-- The record that a stage enters into the history. -/
def record (run : RunContext σ R n) (a : Stage σ R n) : IterationRecord R n :=
  a.progress.record (run.stationarity a)

/-- The progress of a stage with its record. -/
def recorded (run : RunContext σ R n) (a : Stage σ R n) : Progress R n :=
  { a.progress with history := a.progress.history.push (run.record a) }

/-- The session of a stage after its record was made. -/
def entered (run : RunContext σ R n) (a : Stage σ R n) : Session σ R n :=
  (run.enter a.progress a.session).2

theorem enter_eq (run : RunContext σ R n) (a : Stage σ R n) :
    run.enter a.progress a.session
      = ((run.conditioned a, run.record a, run.recorded a), run.entered a) := rfl

/-- The climb of a stage. -/
def climber (run : RunContext σ R n) (a : Stage σ R n) : IterationContext σ R n :=
  run.iteration (run.recorded a) (run.conditioned a)

/-- The test that ends the run at a stage, if there is one. -/
def test (run : RunContext σ R n) (a : Stage σ R n) : Option Termination :=
  stoppingTest run.options.stopping (a.progress.history.back?.map (·.iterate)) a.progress.current
    (run.stationarity a).value

/-- The result of a run that ends at a stage. -/
def ending (run : RunContext σ R n) (a : Stage σ R n) (μ : R) (reason : Termination)
    (s : Session σ R n) : RunResult R n × Session σ R n :=
  (finish (run.recorded a) (run.record a) μ reason : SessionM σ R n (RunResult R n)) s

/-- The stage after a move. -/
def following (run : RunContext σ R n) (a : Stage σ R n) (move : Move R n) (μ : R)
    (s : Session σ R n) : Stage σ R n where
  left := a.left - 1
  progress :=
    ((run.recorded a).moved run.options.stopping (run.climber a).engaged move μ).2
  session := (note (.updated a.progress.iteration
    ((run.recorded a).moved run.options.stopping (run.climber a).engaged move μ).1) s).2

/-! ## One iteration -/

/-- One iteration: the next stage, or the result. -/
def iterateOnce (run : RunContext σ R n) (a : Stage σ R n) :
    Stage σ R n ⊕ (RunResult R n × Session σ R n) :=
  let current := a.progress.current.mu
  match run.test a with
  | some reason => .inr (run.ending a current reason (run.entered a))
  | none =>
    if a.left = 0 then .inr (run.ending a current .maxIterations (run.entered a)) else
      match run.exhausted? (run.entered a) with
      | some reason => .inr (run.ending a current reason (run.entered a))
      | none =>
        match (run.climber a).run current (run.entered a) with
        | ((.error reason, μ), s) => .inr (run.ending a μ reason s)
        | ((.ok move, μ), s) => .inl (run.following a move μ s)

/-- What an iteration can do: end the run in one of four ways, or move on. -/
inductive Iteration (run : RunContext σ R n) (a : Stage σ R n) :
    Stage σ R n ⊕ (RunResult R n × Session σ R n) → Prop where
  /-- The iterate passes a test. -/
  | tested {reason} : run.test a = some reason →
      Iteration run a (.inr (run.ending a a.progress.current.mu reason (run.entered a)))
  /-- No iteration may follow. -/
  | spent : run.test a = none → a.left = 0 →
      Iteration run a (.inr (run.ending a a.progress.current.mu .maxIterations (run.entered a)))
  /-- The budget is used up. -/
  | exhausted {reason} : run.test a = none → a.left ≠ 0 →
      run.exhausted? (run.entered a) = some reason →
      Iteration run a (.inr (run.ending a a.progress.current.mu reason (run.entered a)))
  /-- No step was found. -/
  | failed {reason μ s} : run.test a = none → a.left ≠ 0 →
      run.exhausted? (run.entered a) = none →
      (run.climber a).run a.progress.current.mu (run.entered a) = ((.error reason, μ), s) →
      Iteration run a (.inr (run.ending a μ reason s))
  | moved {move μ s} : run.test a = none → a.left ≠ 0 →
      run.exhausted? (run.entered a) = none →
      (run.climber a).run a.progress.current.mu (run.entered a) = ((.ok move, μ), s) →
      Iteration run a (.inl (run.following a move μ s))

/-- An iteration does one of the things that an iteration can do. -/
theorem iteration_iterateOnce (run : RunContext σ R n) (a : Stage σ R n) :
    run.Iteration a (run.iterateOnce a) := by
  rw [iterateOnce]
  cases htest : run.test a with
  | some reason => exact .tested htest
  | none =>
    dsimp only
    split_ifs with hleft
    · exact .spent htest hleft
    · cases hexhausted : run.exhausted? (run.entered a) with
      | some reason => exact .exhausted htest hleft hexhausted
      | none =>
        dsimp only
        rcases hrun : (run.climber a).run a.progress.current.mu (run.entered a) with
          ⟨⟨reason | move, μ⟩, s⟩
        · exact .failed htest hleft hexhausted hrun
        · exact .moved htest hleft hexhausted hrun

/-- An iteration that moves on has made a move. -/
theorem exists_move (h : run.iterateOnce a = .inl b) :
    ∃ move μ s, a.left ≠ 0 ∧
      (run.climber a).run a.progress.current.mu (run.entered a) = ((.ok move, μ), s) ∧
      b = run.following a move μ s := by
  have hiteration := run.iteration_iterateOnce a
  rw [h] at hiteration
  cases hiteration with
  | moved _ hleft _ hrun => exact ⟨_, _, _, hleft, hrun, rfl⟩

theorem iterateOnce_of_test {reason : Termination} (htest : run.test a = some reason) :
    run.iterateOnce a = .inr (run.ending a a.progress.current.mu reason (run.entered a)) := by
  rw [iterateOnce, htest]

theorem iterateOnce_of_left_eq_zero (htest : run.test a = none) (hleft : a.left = 0) :
    run.iterateOnce a = .inr (run.ending a a.progress.current.mu .maxIterations (run.entered a)) := by
  rw [iterateOnce, htest]
  exact if_pos hleft

theorem iterateOnce_of_run {move : Move R n} {μ : R} {s : Session σ R n} (htest : run.test a = none)
    (hleft : a.left ≠ 0) (hexhausted : run.exhausted? (run.entered a) = none)
    (hrun : (run.climber a).run a.progress.current.mu (run.entered a) = ((.ok move, μ), s)) :
    run.iterateOnce a = .inl (run.following a move μ s) := by
  rw [iterateOnce, htest]
  dsimp only
  rw [if_neg hleft, hexhausted]
  dsimp only
  rw [hrun]

theorem iterateOnce_of_run_eq_error {reason : Termination} {μ : R} {s : Session σ R n}
    (htest : run.test a = none) (hleft : a.left ≠ 0)
    (hexhausted : run.exhausted? (run.entered a) = none)
    (hrun : (run.climber a).run a.progress.current.mu (run.entered a) = ((.error reason, μ), s)) :
    run.iterateOnce a = .inr (run.ending a μ reason s) := by
  rw [iterateOnce, htest]
  dsimp only
  rw [if_neg hleft, hexhausted]
  dsimp only
  rw [hrun]

/-- An iteration that ends the run yields the history with the record of its stage. -/
theorem exists_ending {r : RunResult R n × Session σ R n} (h : run.iterateOnce a = .inr r) :
    ∃ μ reason s, r = run.ending a μ reason s := by
  have hiteration := run.iteration_iterateOnce a
  rw [h] at hiteration
  cases hiteration <;> exact ⟨_, _, _, rfl⟩

/-- It ends with the penalty parameter of the iterate, or with the one that a climb without a step
leaves. -/
theorem ending_cases {r : RunResult R n × Session σ R n} (h : run.iterateOnce a = .inr r) :
    ∃ μ reason s, r = run.ending a μ reason s ∧
      (μ = a.progress.current.mu ∧ s = run.entered a ∨
        (run.climber a).run a.progress.current.mu (run.entered a) = ((.error reason, μ), s)) := by
  have hiteration := run.iteration_iterateOnce a
  rw [h] at hiteration
  cases hiteration with
  | tested => exact ⟨_, _, _, rfl, .inl ⟨rfl, rfl⟩⟩
  | spent => exact ⟨_, _, _, rfl, .inl ⟨rfl, rfl⟩⟩
  | exhausted => exact ⟨_, _, _, rfl, .inl ⟨rfl, rfl⟩⟩
  | failed _ _ _ hrun => exact ⟨_, _, _, rfl, .inr hrun⟩

/-! ## All iterations -/

theorem iterateFrom_apply (run : RunContext σ R n) (a : Stage σ R n) :
    run.iterateFrom a.left a.progress a.session
      = (run.iterateOnce a).elim
          (fun b ↦ run.iterateFrom b.left b.progress b.session) id := by
  obtain ⟨left, p, s⟩ := a
  rw [iterateFrom.eq_def, iterateOnce]
  dsimp only
  rw [bind_apply, run.enter_eq ⟨left, p, s⟩]
  dsimp only
  have htest : stoppingTest run.options.stopping (p.history.back?.map (·.iterate))
      (run.recorded ⟨left, p, s⟩).current (run.record ⟨left, p, s⟩).stationarity.value
        = run.test ⟨left, p, s⟩ := rfl
  rw [htest]
  cases run.test ⟨left, p, s⟩ with
  | some reason => rfl
  | none =>
    cases left with
    | zero => rfl
    | succ left =>
      rw [if_neg (Nat.succ_ne_zero left)]
      dsimp only
      rw [bind_apply, get_apply]
      dsimp only
      cases run.exhausted? (run.entered ⟨left + 1, p, s⟩) with
      | some reason => rfl
      | none =>
        dsimp only
        rw [bind_apply]
        have hclimb : (run.iteration (run.recorded ⟨left + 1, p, s⟩)
            (run.conditioned ⟨left + 1, p, s⟩)).run (run.recorded ⟨left + 1, p, s⟩).current.mu
              (run.entered ⟨left + 1, p, s⟩)
            = (run.climber ⟨left + 1, p, s⟩).run p.current.mu
              (run.entered ⟨left + 1, p, s⟩) := rfl
        rw [hclimb]
        rcases (run.climber ⟨left + 1, p, s⟩).run p.current.mu
          (run.entered ⟨left + 1, p, s⟩) with ⟨⟨reason | move, μ⟩, s'⟩
        · rfl
        · rfl

/-- The iterations come to the result of the run. -/
theorem ends_iterateFrom (run : RunContext σ R n) (a : Stage σ R n) :
    Ends run.iterateOnce a (run.iterateFrom a.left a.progress a.session) := by
  refine ends_of_measure (f := fun a ↦ run.iterateFrom a.left a.progress a.session)
    run.iterateFrom_apply (·.left) (fun a b h ↦ ?_) a
  obtain ⟨_, _, _, hleft, -, rfl⟩ := exists_move h
  exact Nat.sub_one_lt hleft

/-- The history of a run continues that of a stage with one record for each stage from there on. -/
theorem history_of_path {as : List (Stage σ R n)} {r : RunResult R n × Session σ R n}
    (h : Path run.iterateOnce (a :: as) r) :
    r.1.history.toList = a.progress.history.toList ++ (a :: as).map run.record := by
  induction as generalizing a with
  | nil =>
    cases h with
    | last hr =>
      obtain ⟨μ, reason, s, rfl⟩ := exists_ending hr
      exact Array.toList_push
  | cons b as ih =>
    cases h with
    | cons hab hb =>
      rw [ih hb]
      obtain ⟨move, μ, s, -, -, rfl⟩ := exists_move hab
      show (a.progress.history.push (run.record a)).toList ++ _ = _
      rw [Array.toList_push, List.append_assoc]
      rfl

/-- There are as many records as stages. -/
theorem size_history_of_path {as : List (Stage σ R n)} {r : RunResult R n × Session σ R n}
    (h : Path run.iterateOnce (a :: as) r) (hempty : a.progress.history = #[]) :
    r.1.history.size = as.length + 1 := by
  rw [← Array.length_toList, history_of_path h, hempty]
  simp

/-- The record at a position of the history is that of the stage at this position. -/
theorem exists_stage {as : List (Stage σ R n)} {r : RunResult R n × Session σ R n}
    (h : Path run.iterateOnce (a :: as) r) (hempty : a.progress.history = #[]) {k : Nat}
    {record : IterationRecord R n} (hk : r.1.history[k]? = some record) :
    ∃ b, (a :: as)[k]? = some b ∧ run.record b = record := by
  rw [← Array.getElem?_toList, history_of_path h, hempty, List.nil_append, List.getElem?_map] at hk
  exact Option.map_eq_some_iff.1 hk

/-- The first record is that of the stage at which the run begins. -/
theorem first_record {as : List (Stage σ R n)} {r : RunResult R n × Session σ R n}
    (h : Path run.iterateOnce (a :: as) r) (hempty : a.progress.history = #[]) :
    r.1.history[0]? = some (run.record a) := by
  rw [← Array.getElem?_toList, history_of_path h, hempty]
  rfl

/-- Iterations are numbered by their positions. -/
theorem iteration_of_path {as : List (Stage σ R n)} {r : RunResult R n × Session σ R n}
    (h : Path run.iterateOnce (a :: as) r) {k : Nat} (hk : (a :: as)[k]? = some b) :
    b.progress.iteration = a.progress.iteration + k := by
  induction k generalizing a as with
  | zero =>
    cases hk
    rfl
  | succ k ih =>
    cases h with
    | last _ => simp at hk
    | cons hround hnext =>
      obtain ⟨move, μ, s, -, -, rfl⟩ := exists_move hround
      rw [ih hnext hk, Nat.add_comm k 1, ← Nat.add_assoc]
      rfl

/-- Consecutive records are those of a stage and of the one that its iteration leads to. -/
theorem exists_stages {as : List (Stage σ R n)} {r : RunResult R n × Session σ R n}
    (h : Path run.iterateOnce (a :: as) r) (hempty : a.progress.history = #[]) {k : Nat}
    {before after : IterationRecord R n} (hk : r.1.history[k]? = some before)
    (hk' : r.1.history[k + 1]? = some after) :
    ∃ b ∈ a :: as, ∃ c ∈ a :: as, run.record b = before ∧ run.record c = after ∧
      b.progress.iteration = a.progress.iteration + k ∧ run.iterateOnce b = .inl c := by
  obtain ⟨b, hb, rfl⟩ := exists_stage h hempty hk
  obtain ⟨c, hc, rfl⟩ := exists_stage h hempty hk'
  exact ⟨b, List.mem_of_getElem? hb, c, List.mem_of_getElem? hc, rfl, rfl,
    iteration_of_path h hb, h.step_of_getElem? hb hc⟩

end RunContext

/-! ## The iterates of a run -/

/-- The iterates that a tracker remembers. -/
def Tracker.iterates (t : Tracker R n) : List (Iterate R n) := t.bestFeasible.toList ++ [t.mostFeasible]

/-- A tracker remembers only what it remembered before and what it considers. -/
theorem Tracker.mem_iterates_consider {t : Tracker R n} {options : StoppingOptions R}
    {new it : Iterate R n} (h : it ∈ (t.consider options new).iterates) :
    it = new ∨ it ∈ t.iterates := by
  rw [iterates, List.mem_append, Option.mem_toList, List.mem_singleton, consider] at h
  rw [iterates, List.mem_append, Option.mem_toList, List.mem_singleton]
  rcases h with hbest | hmost
  · dsimp only at hbest
    split_ifs at hbest
    · cases hold : t.bestFeasible with
      | none =>
        rw [hold, lowerObjective] at hbest
        exact .inl (Option.some.inj hbest).symm
      | some b =>
        rw [hold, lowerObjective] at hbest
        split_ifs at hbest
        · exact .inl (Option.some.inj hbest).symm
        · exact .inr (.inl hbest)
    · exact .inr (.inl hbest)
  · dsimp only at hmost
    split_ifs at hmost
    · exact .inl hmost
    · exact .inr (.inr hmost)

/-- All iterates of a result. -/
def RunResult.iterates (r : RunResult R n) : List (Iterate R n) :=
  r.history.toList.map (·.iterate) ++ r.final :: r.tracker.iterates

/-- Nothing is recorded yet, and nothing remembered but the current iterate. -/
structure Progress.IsFresh (p : Progress R n) : Prop where
  history_eq : p.history = #[]
  eq_current : ∀ it ∈ p.tracker.iterates, it = p.current

theorem Progress.isFresh_start (o : Options R) (first : Observation R n) :
    (Progress.start o first).IsFresh where
  history_eq := rfl
  eq_current it h := by
    rcases Tracker.mem_iterates_consider h with rfl | hbefore
    · rfl
    · exact List.mem_singleton.1 hbefore

namespace RunContext

variable {run : RunContext σ R n} {a : Stage σ R n} {as : List (Stage σ R n)}
    {r : RunResult R n × Session σ R n} {it : Iterate R n}

/-- What is remembered at the end was remembered before, or it was the iterate of a later stage. -/
theorem mem_tracker_of_path (h : Path run.iterateOnce (a :: as) r)
    (hit : it ∈ r.1.tracker.iterates) :
    it ∈ a.progress.tracker.iterates ∨ ∃ b ∈ as, it = b.progress.current := by
  induction as generalizing a with
  | nil =>
    cases h with
    | last hr =>
      obtain ⟨μ, reason, s, rfl⟩ := exists_ending hr
      exact .inl hit
  | cons b as ih =>
    cases h with
    | cons hab hb =>
      rcases ih hb with hbefore | ⟨c, hc, hcurrent⟩
      · obtain ⟨move, μ, s, -, -, rfl⟩ := exists_move hab
        rcases Tracker.mem_iterates_consider hbefore with rfl | hold
        · exact .inr ⟨_, List.mem_cons_self, rfl⟩
        · exact .inl hold
      · exact .inr ⟨c, List.mem_cons_of_mem _ hc, hcurrent⟩

/-- **Every iterate of a result is that of a stage**, but for the penalty parameter of the final
one. -/
theorem exists_stage_of_mem_iterates (h : Path run.iterateOnce (a :: as) r)
    (hfresh : a.progress.IsFresh) (hit : it ∈ r.1.iterates) :
    ∃ b ∈ a :: as, it.toObservation = b.progress.current.toObservation ∧
      (it = b.progress.current ∨ it = r.1.final) := by
  rcases List.mem_append.1 hit with hhistory | hrest
  · rw [history_of_path h, hfresh.history_eq, List.nil_append, List.map_map] at hhistory
    obtain ⟨b, hb, rfl⟩ := List.mem_map.1 hhistory
    exact ⟨b, hb, rfl, .inl rfl⟩
  rcases List.mem_cons.1 hrest with rfl | htracker
  · obtain ⟨b, hb, hr⟩ := h.exists_last
    obtain ⟨μ, reason, s, rfl⟩ := exists_ending hr
    exact ⟨b, hb, rfl, .inr rfl⟩
  · rcases mem_tracker_of_path h htracker with hstart | ⟨b, hb, rfl⟩
    · obtain rfl := hfresh.eq_current it hstart
      exact ⟨a, List.mem_cons_self, rfl, .inl rfl⟩
    · exact ⟨b, List.mem_cons_of_mem _ hb, rfl, .inl rfl⟩

end RunContext

/-! ## Whole runs -/

/-- The stage at which a run begins, after the answer at the starting point. -/
def Stage.initial (env : Environment σ R n) (options : Options R) (first : Observation R n)
    (world : σ) : Stage σ R n where
  left := options.stopping.maxIterations
  progress := .start options first
  session := (note (.started first.shape options.mu0)
    (evaluate env first.point (.start (env.generator options.seed) world)).2).2

/-- **A run that yields a result** has valid options and a usable answer at the starting point, and
passes stages from the initial one to its result. -/
theorem minimize_eq_ok {env : Environment σ R n} {options : Options R} {x₀ : Vector R n} {world : σ}
    {r : RunResult R n} {s : Session σ R n} (h : minimize env options x₀ world = (.ok r, s)) :
    options.IsValid ∧ n ≠ 0 ∧ ∃ first : Observation R n, ∃ as,
      (env.evaluate x₀ world).1.toObservation? x₀ = some first ∧ first.isFinite = true ∧
      first.point = x₀ ∧
      Path (RunContext.iterateOnce ⟨env, options, first.shape⟩)
        (.initial env options first world :: as) (r, s) := by
  rw [minimize, StateT.run, runFrom] at h
  cases hvalid : options.validate with
  | error e => rw [hvalid] at h; cases h
  | ok options' =>
    obtain ⟨rfl, hoptions⟩ := Options.validate_eq_ok_iff.1 hvalid
    rw [hvalid] at h
    dsimp only at h
    split_ifs at h with hn
    · cases h
    rw [bind_apply] at h
    have hanswer : (evaluate env x₀ (.start (env.generator options'.seed) world)).1
        = (env.evaluate x₀ world).1 := rfl
    rw [hanswer] at h
    cases hfirst : (env.evaluate x₀ world).1.toObservation? x₀ with
    | none => rw [hfirst] at h; cases h
    | some first =>
      rw [hfirst] at h
      dsimp only at h
      split_ifs at h with hfinite
      · obtain ⟨rfl, -⟩ := Evaluation.eq_of_toObservation?_eq_some hfirst
        rw [Bool.and_eq_true] at hfinite
        have hends := RunContext.ends_iterateFrom ⟨env, options', first.shape⟩
          (.initial env options' first world)
        cases h
        obtain ⟨as, has⟩ := hends
        exact ⟨hoptions, hn, first, as, rfl, hfinite.1, rfl, has⟩
      · cases h

/-- With valid options and a usable answer at the starting point a run yields a result. -/
theorem exists_minimize_eq_ok {env : Environment σ R n} {options : Options R} {x₀ : Vector R n}
    {world : σ} {first : Observation R n} (hoptions : options.IsValid) (hn : n ≠ 0)
    (hfirst : (env.evaluate x₀ world).1.toObservation? x₀ = some first)
    (hfinite : first.isFinite = true) (hx₀ : Linear.allFinite x₀ = true) :
    ∃ r s, minimize env options x₀ world = (.ok r, s) := by
  have hanswer : (evaluate env x₀ (.start (env.generator options.seed) world)).1
      = (env.evaluate x₀ world).1 := rfl
  rw [minimize, StateT.run, runFrom, Options.validate_eq_ok_iff.2 ⟨rfl, hoptions⟩]
  dsimp only
  rw [if_neg hn, bind_apply, hanswer, hfirst]
  dsimp only
  rw [hfinite, hx₀]
  exact ⟨_, _, rfl⟩

end ExactPenalty
