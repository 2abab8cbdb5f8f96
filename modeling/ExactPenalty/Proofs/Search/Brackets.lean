import ExactPenalty.Proofs.Options
import ExactPenalty.Proofs.Search.Lookups

/-!
# What the bracket stands for

A bracketing search remembers of the steps it has tried only a lower and an upper end.  `Bracket.Follows`
says where they come from, in any arithmetic: the lower end is zero or a step that was found too short, and
the upper end, if there is one, is a step that was found too long.  A look-up that is refused and a trial
that cannot be used are found too long, so they move the upper end only.  In exact arithmetic the ends are
the largest and the smallest such steps and the next step lies between them (`Bracket.Encloses`), so no
step is tried twice.

`brackets_enclose` states this for every look-up of a search, and what a failure says: no step was found
too long exactly where the bracket has no upper end.
-/

set_option autoImplicit false

namespace ExactPenalty

open Linear

/-! ## What a look-up finds -/

section Rounds

variable {σ R : Type} [Scalar R] {n : Nat} {ask : Oracle σ R n} {task : SearchTask R n}
    {o : SearchOptions R} {limits : BracketLimits}

/-- The answer to the look-up that a state of the search makes. -/
def Oracle.answer (ask : Oracle σ R n) (task : SearchTask R n) (a : Bracket R n × σ) : Lookup R n :=
  (ask (task.pointAt a.1.step) a.2).1

/-- The step is too short: the trial can be used and does not violate the sufficient decrease, but the
slope has not risen enough. -/
def FoundShort (ask : Oracle σ R n) (task : SearchTask R n) (o : SearchOptions R) (a : Bracket R n × σ) :
    Prop :=
  ∃ observation, ask.answer task a = .evaluated observation ∧
    (observation.weighed task.mu).isUsable = true ∧
    ¬ task.decreaseBound o a.1.step < (observation.weighed task.mu).penalty ∧
    dot (observation.weighed task.mu).penaltyGrad task.direction ≤ o.curvature * task.slope

/-- The step is too long: the look-up is refused, or the trial cannot be used or violates the sufficient
decrease. -/
def FoundLong (ask : Oracle σ R n) (task : SearchTask R n) (o : SearchOptions R) (a : Bracket R n × σ) :
    Prop :=
  ask.answer task a = .rejected ∨ ∃ observation, ask.answer task a = .evaluated observation ∧
    ((observation.weighed task.mu).isUsable = false ∨
      task.decreaseBound o a.1.step < (observation.weighed task.mu).penalty)

theorem FoundShort.not_foundLong {a : Bracket R n × σ} (h : FoundShort ask task o a) :
    ¬ FoundLong ask task o a := by
  obtain ⟨observation, hanswer, husable, hdecreases, -⟩ := h
  rintro (hrejected | ⟨observation', hanswer', hlong⟩)
  · cases hanswer.symm.trans hrejected
  · cases hanswer.symm.trans hanswer'
    rcases hlong with hunusable | hlong
    · cases husable.symm.trans hunusable
    · exact hdecreases hlong

/-- A round that goes on has found the step too short or too long. -/
theorem bracketRound_eq_inl_cases {a b : Bracket R n × σ}
    (h : bracketRound ask task o limits a = .inl b) :
    (FoundShort ask task o a ∧ ∃ trial, b.1 = a.1.after trial false) ∨
      (FoundLong ask task o a ∧ ∃ trial, b.1 = a.1.after trial true) := by
  rw [bracketRound] at h
  split_ifs at h
  rcases hask : ask (task.pointAt a.1.step) a.2 with ⟨observation | _ | _, s⟩ <;> rw [hask] at h
  · have hanswer : ask.answer task a = .evaluated observation := congrArg Prod.fst hask
    cases hv : task.verdict o (Trial.ofObservation task a.1.step observation) <;>
      simp only [hv] at h <;> cases h
    · exact .inr ⟨.inr ⟨observation, hanswer, SearchTask.verdict_eq_tooLong_iff.1 hv⟩, _, rfl⟩
    · exact .inl ⟨⟨observation, hanswer, SearchTask.verdict_eq_tooShort_iff.1 hv⟩, _, rfl⟩
  · cases h
    exact .inr ⟨.inl (congrArg Prod.fst hask), _, rfl⟩
  · cases h

/-! ## Where the ends come from -/

/-- The ends of a bracket come from the look-ups before it. -/
structure Bracket.Follows (ask : Oracle σ R n) (task : SearchTask R n) (o : SearchOptions R)
    (earlier : List (Bracket R n × σ)) (b : Bracket R n) : Prop where
  /-- Every look-up was counted, and it found its step too short or too long. -/
  evaluations_eq : b.evaluations = earlier.length
  found : ∀ a ∈ earlier, FoundShort ask task o a ∨ FoundLong ask task o a
  lower_cases : (b.lower = 0 ∧ ∀ a ∈ earlier, ¬ FoundShort ask task o a) ∨
    ∃ a ∈ earlier, FoundShort ask task o a ∧ a.1.step = b.lower
  upper_cases : (b.upper = .posInf ∧ ∀ a ∈ earlier, ¬ FoundLong ask task o a) ∨
    ∃ a ∈ earlier, FoundLong ask task o a ∧ b.upper = .finite a.1.step

theorem Bracket.follows_start (step : R) : (Bracket.start step).Follows ask task o [] where
  evaluations_eq := rfl
  found := List.forall_mem_nil _
  lower_cases := .inl ⟨rfl, List.forall_mem_nil _⟩
  upper_cases := .inl ⟨rfl, List.forall_mem_nil _⟩

theorem Bracket.Follows.round {earlier : List (Bracket R n × σ)} {a b : Bracket R n × σ}
    (ha : a.1.Follows ask task o earlier) (h : bracketRound ask task o limits a = .inl b) :
    b.1.Follows ask task o (earlier ++ [a]) := by
  have hlast : a ∈ earlier ++ [a] := List.mem_append_right _ (List.mem_singleton_self a)
  have hmem {c : Bracket R n × σ} (hc : c ∈ earlier) : c ∈ earlier ++ [a] := List.mem_append_left _ hc
  rcases bracketRound_eq_inl_cases h with ⟨hshort, trial, hb⟩ | ⟨hlong, trial, hb⟩
  all_goals
    have hlower := a.1.lower_after trial
    have hupper := a.1.upper_after trial
  · refine ⟨?_, ?_, .inr ⟨a, hlast, hshort, ?_⟩, ?_⟩
    · rw [hb, evaluations_after, ha.evaluations_eq, List.length_append, List.length_singleton]
    · exact List.forall_mem_append.2 ⟨ha.found, List.forall_mem_singleton.2 (.inl hshort)⟩
    · rw [hb, hlower]
      rfl
    · rw [hb, hupper, if_neg Bool.false_ne_true]
      refine ha.upper_cases.imp (fun ⟨hinf, hnone⟩ ↦ ⟨hinf, ?_⟩) fun ⟨c, hc, hfound⟩ ↦ ⟨c, hmem hc, hfound⟩
      exact List.forall_mem_append.2 ⟨hnone, List.forall_mem_singleton.2 hshort.not_foundLong⟩
  · refine ⟨?_, ?_, ?_, .inr ⟨a, hlast, hlong, ?_⟩⟩
    · rw [hb, evaluations_after, ha.evaluations_eq, List.length_append, List.length_singleton]
    · exact List.forall_mem_append.2 ⟨ha.found, List.forall_mem_singleton.2 (.inr hlong)⟩
    · rw [hb, hlower, if_pos rfl]
      refine ha.lower_cases.imp (fun ⟨hzero, hnone⟩ ↦ ⟨hzero, ?_⟩) fun ⟨c, hc, hfound⟩ ↦ ⟨c, hmem hc, hfound⟩
      exact List.forall_mem_append.2
        ⟨hnone, List.forall_mem_singleton.2 fun hshort ↦ hshort.not_foundLong hlong⟩
    · rw [hb, hupper]
      rfl

/-! ## The next step -/

/-- With two ends the next step is the middle of the bracket. -/
theorem Bracket.step_after_of_finite {b : Bracket R n} {trial : Option (Trial R n)} {tooLong : Bool}
    {u : R} (hu : Scalar.isFinite u = true) (h : (b.after trial tooLong).upper = .finite u) :
    (b.after trial tooLong).step = 0.5 * ((b.after trial tooLong).lower + u) := by
  have hfinite : (Extended.finite u).finite? = some u := if_pos hu
  rw [after] at h ⊢
  generalize (b.counted trial).narrowed tooLong = c at h ⊢
  rw [advanced] at h ⊢
  cases hsome : c.upper.finite? with
  | none =>
    rw [hsome] at h
    dsimp only at h
    rw [h, hfinite] at hsome
    cases hsome
  | some u' =>
    rw [hsome] at h
    dsimp only at h ⊢
    rw [h, hfinite] at hsome
    cases hsome
    rfl

/-- Without an upper end it is twice the lower one. -/
theorem Bracket.step_after_of_posInf {b : Bracket R n} {trial : Option (Trial R n)} {tooLong : Bool}
    (h : (b.after trial tooLong).upper = .posInf) :
    (b.after trial tooLong).step = (1 + 1) * (b.after trial tooLong).lower ∧
      (b.after trial tooLong).expansions = b.expansions + 1 := by
  have hexpansions : ((b.counted trial).narrowed tooLong).expansions = b.expansions := by
    cases tooLong <;> rfl
  rw [after] at h ⊢
  generalize (b.counted trial).narrowed tooLong = c at h hexpansions ⊢
  rw [advanced] at h ⊢
  cases hfinite : c.upper.finite? with
  | none => exact ⟨rfl, congrArg (· + 1) hexpansions⟩
  | some u' =>
    rw [hfinite] at h
    dsimp only at h
    rw [h] at hfinite
    cases hfinite

end Rounds

/-! ## Exact arithmetic -/

section Exact

variable {σ : Type} {n : Nat} {ask : Oracle σ ℝ n} {task : SearchTask ℝ n} {o : SearchOptions ℝ}
    {limits : BracketLimits} {earlier : List (Bracket ℝ n × σ)}

/-- The ends of a bracket bound all steps that were tried, and the next step lies between them. -/
structure Bracket.Encloses (ask : Oracle σ ℝ n) (task : SearchTask ℝ n) (o : SearchOptions ℝ)
    (earlier : List (Bracket ℝ n × σ)) (b : Bracket ℝ n) : Prop where
  lower_nonneg : 0 ≤ b.lower
  short_le : ∀ a ∈ earlier, FoundShort ask task o a → a.1.step ≤ b.lower
  le_long : ∀ u, b.upper = .finite u → ∀ a ∈ earlier, FoundLong ask task o a → u ≤ a.1.step
  lower_lt : b.lower < b.step
  lt_upper : ∀ u, b.upper = .finite u → b.step < u
  /-- While nothing was too long, the initial step is doubled. -/
  doubled : b.upper = .posInf → b.step = o.initialStep * 2 ^ b.expansions
  /-- From then on the bracket is bisected. -/
  middle : ∀ u, b.upper = .finite u → b.step = (b.lower + u) / 2

namespace Bracket.Encloses

theorem start (hstep : 0 < o.initialStep) :
    (Bracket.start o.initialStep).Encloses ask task o [] where
  lower_nonneg := le_rfl
  short_le := List.forall_mem_nil _
  le_long _ _ := List.forall_mem_nil _
  lower_lt := hstep
  lt_upper _ hu := nomatch hu
  doubled _ := by simp [Bracket.start]
  middle _ hu := nomatch hu

variable {a b : Bracket ℝ n × σ}

theorem step_pos {b : Bracket ℝ n} (h : b.Encloses ask task o earlier) : 0 < b.step :=
  h.lower_nonneg.trans_lt h.lower_lt

/-- A bracket whose lower end is below its upper one has the next step between them. -/
theorem between_after {b : Bracket ℝ n} {trial : Option (Trial ℝ n)} {tooLong : Bool} {u : ℝ}
    (hu : (b.after trial tooLong).upper = .finite u) (hlt : (b.after trial tooLong).lower < u) :
    (b.after trial tooLong).lower < (b.after trial tooLong).step ∧
      (b.after trial tooLong).step < u ∧
      (b.after trial tooLong).step = ((b.after trial tooLong).lower + u) / 2 := by
  have hmiddle : (b.after trial tooLong).step = ((b.after trial tooLong).lower + u) / 2 := by
    rw [step_after_of_finite rfl hu]
    ring
  refine ⟨?_, ?_, hmiddle⟩ <;> linarith

theorem round_of_foundLong (ha : a.1.Encloses ask task o earlier)
    (hfollows : a.1.Follows ask task o earlier) (hlong : FoundLong ask task o a)
    (trial : Option (Trial ℝ n)) : (a.1.after trial true).Encloses ask task o (earlier ++ [a]) := by
  have hlower : (a.1.after trial true).lower = a.1.lower := a.1.lower_after trial true
  have hupper : (a.1.after trial true).upper = .finite a.1.step := a.1.upper_after trial true
  have hbetween := between_after hupper (hlower.trans_lt ha.lower_lt)
  have heq {u : ℝ} (hu : (a.1.after trial true).upper = .finite u) : a.1.step = u := by
    cases hupper.symm.trans hu
    rfl
  constructor
  case lower_nonneg => exact ha.lower_nonneg.trans_eq hlower.symm
  case short_le =>
    rw [hlower]
    refine List.forall_mem_append.2 ⟨ha.short_le, List.forall_mem_singleton.2 fun hshort ↦ ?_⟩
    exact absurd hlong hshort.not_foundLong
  case le_long =>
    intro u hu
    rw [← heq hu]
    refine List.forall_mem_append.2 ⟨fun c hc hfound ↦ ?_, List.forall_mem_singleton.2 fun _ ↦ le_rfl⟩
    -- An earlier step that was too long is at least the upper end, which the new step is below.
    rcases hfollows.upper_cases with ⟨-, hnone⟩ | ⟨c', -, -, hfinite⟩
    · exact absurd hfound (hnone c hc)
    · exact (ha.lt_upper _ hfinite).le.trans (ha.le_long _ hfinite c hc hfound)
  case lower_lt => exact hbetween.1
  case lt_upper =>
    intro u hu
    exact hbetween.2.1.trans_eq (heq hu)
  case doubled =>
    intro hinf
    cases hupper.symm.trans hinf
  case middle =>
    intro u hu
    rw [← heq hu]
    exact hbetween.2.2

theorem round_of_foundShort (ha : a.1.Encloses ask task o earlier)
    (hfollows : a.1.Follows ask task o earlier) (hshort : FoundShort ask task o a)
    (trial : Option (Trial ℝ n)) : (a.1.after trial false).Encloses ask task o (earlier ++ [a]) := by
  have hlower : (a.1.after trial false).lower = a.1.step := a.1.lower_after trial false
  have hupper : (a.1.after trial false).upper = a.1.upper := a.1.upper_after trial false
  have hbetween {u : ℝ} (hu : (a.1.after trial false).upper = .finite u) :=
    between_after hu (hlower.trans_lt (ha.lt_upper u (hupper.symm.trans hu)))
  have hdouble (hinf : (a.1.after trial false).upper = .posInf) :
      (a.1.after trial false).step = 2 * a.1.step := by
    rw [(step_after_of_posInf hinf).1, hlower, one_add_one_eq_two]
  constructor
  case lower_nonneg => exact ha.step_pos.le.trans_eq hlower.symm
  case short_le =>
    rw [hlower]
    refine List.forall_mem_append.2 ⟨fun c hc hfound ↦ ?_, List.forall_mem_singleton.2 fun _ ↦ le_rfl⟩
    exact (ha.short_le c hc hfound).trans ha.lower_lt.le
  case le_long =>
    intro u hu
    refine List.forall_mem_append.2 ⟨ha.le_long u (hupper.symm.trans hu), ?_⟩
    exact List.forall_mem_singleton.2 fun hlong ↦ absurd hlong hshort.not_foundLong
  case lower_lt =>
    rcases hfollows.upper_cases with ⟨hinf, -⟩ | ⟨c, -, -, hfinite⟩
    · rw [hdouble (hupper.trans hinf), hlower]
      linarith [ha.step_pos]
    · exact (hbetween (hupper.trans hfinite)).1
  case lt_upper => exact fun u hu ↦ (hbetween hu).2.1
  case doubled =>
    intro hinf
    rw [hdouble hinf, (step_after_of_posInf hinf).2, ha.doubled (hupper.symm.trans hinf), pow_succ]
    ring
  case middle => exact fun u hu ↦ (hbetween hu).2.2

theorem round (hfollows : a.1.Follows ask task o earlier) (ha : a.1.Encloses ask task o earlier)
    (h : bracketRound ask task o limits a = .inl b) : b.1.Encloses ask task o (earlier ++ [a]) := by
  rcases bracketRound_eq_inl_cases h with ⟨hshort, trial, hb⟩ | ⟨hlong, trial, hb⟩
  · rw [hb]
    exact ha.round_of_foundShort hfollows hshort trial
  · rw [hb]
    exact ha.round_of_foundLong hfollows hlong trial

/-- A bracket with two ends is halved. -/
theorem width_eq (ha : a.1.Encloses ask task o earlier) (h : bracketRound ask task o limits a = .inl b)
    {u : ℝ} (hu : a.1.upper = .finite u) :
    ∃ u', b.1.upper = .finite u' ∧ u' - b.1.lower = (u - a.1.lower) / 2 := by
  have hmiddle := ha.middle u hu
  rcases bracketRound_eq_inl_cases h with ⟨-, trial, hb⟩ | ⟨-, trial, hb⟩
  · refine ⟨u, ?_, ?_⟩
    · rw [hb, upper_after, if_neg Bool.false_ne_true, hu]
    · rw [hb, lower_after, if_neg Bool.false_ne_true, hmiddle]
      ring
  · refine ⟨a.1.step, ?_, ?_⟩
    · rw [hb, upper_after, if_pos rfl]
    · rw [hb, lower_after, if_pos rfl, hmiddle]
      ring

/-- The next step is none of those that were tried. -/
theorem step_ne {b : Bracket ℝ n} (hfollows : b.Follows ask task o earlier)
    (hb : b.Encloses ask task o earlier) : ∀ a ∈ earlier, a.1.step ≠ b.step := by
  intro a ha
  rcases hfollows.found a ha with hshort | hlong
  · exact ((hb.short_le a ha hshort).trans_lt hb.lower_lt).ne
  · rcases hfollows.upper_cases with ⟨-, hnone⟩ | ⟨c, -, -, hfinite⟩
    · exact absurd hlong (hnone a ha)
    · exact ((hb.lt_upper _ hfinite).trans_le (hb.le_long _ hfinite a ha hlong)).ne'

/-- The lower end is the largest step that was too short, or zero. -/
theorem isGreatest_lower {b : Bracket ℝ n} (hfollows : b.Follows ask task o earlier)
    (hb : b.Encloses ask task o earlier) :
    IsGreatest (insert 0 {t | ∃ a ∈ earlier, FoundShort ask task o a ∧ a.1.step = t}) b.lower := by
  constructor
  · exact hfollows.lower_cases.imp And.left id
  · rintro t (rfl | ⟨a, ha, hshort, rfl⟩)
    · exact hb.lower_nonneg
    · exact hb.short_le a ha hshort

/-- The upper end is the smallest step that was too long, if there was one. -/
theorem upper_cases {b : Bracket ℝ n} (hfollows : b.Follows ask task o earlier)
    (hb : b.Encloses ask task o earlier) :
    (b.upper = .posInf ∧ ∀ a ∈ earlier, ¬ FoundLong ask task o a) ∨
      ∃ u, b.upper = .finite u ∧
        IsLeast {t | ∃ a ∈ earlier, FoundLong ask task o a ∧ a.1.step = t} u := by
  refine hfollows.upper_cases.imp_right fun ⟨a, ha, hlong, hfinite⟩ ↦ ⟨a.1.step, hfinite, ?_⟩
  refine ⟨⟨a, ha, hlong, rfl⟩, ?_⟩
  rintro t ⟨c, hc, hfound, rfl⟩
  exact hb.le_long _ hfinite c hc hfound

end Bracket.Encloses

/-- What the failure of a search that may not go on says about the steps it tried. -/
theorem Bracket.Follows.failure_cases {b : Bracket ℝ n} (h : b.Follows ask task o earlier)
    (hslope : task.slope < 0) :
    ((∃ step, (b.failure task).reason = .notBracketed step) ∧
        ∀ a ∈ earlier, FoundShort ask task o a) ∨
      ((∃ lower upper, (b.failure task).reason = .wolfeNotSatisfied lower upper) ∧
        ∃ a ∈ earlier, FoundLong ask task o a) := by
  rw [failure]
  dsimp only
  rw [if_neg hslope.not_ge]
  rcases h.upper_cases with ⟨hinf, hnone⟩ | ⟨a, ha, hlong, hfinite⟩
  · rw [hinf]
    exact .inl ⟨⟨b.step, rfl⟩, fun a ha ↦ (h.found a ha).resolve_right (hnone a ha)⟩
  · rw [hfinite]
    exact .inr ⟨⟨b.lower, a.1.step, rfl⟩, a, ha, hlong⟩

/-! ## Whole searches -/

/-- At every position of the list the bracket follows from the look-ups before it, and encloses what they
leave. -/
def TracksBrackets (ask : Oracle σ ℝ n) (task : SearchTask ℝ n) (o : SearchOptions ℝ)
    (states : List (Bracket ℝ n × σ)) : Prop :=
  ∀ (k : Nat) (a : Bracket ℝ n × σ), states[k]? = some a →
    a.1.Follows ask task o (states.take k) ∧ a.1.Encloses ask task o (states.take k)

theorem exists_states (hstep : 0 < o.initialStep) (ask : Oracle σ ℝ n) (task : SearchTask ℝ n) (s : σ) :
    ∃ states : List (Bracket ℝ n × σ), states.head? = some (.start o.initialStep, s) ∧
      Path (bracketRound ask task o (task.bracketLimits o)) states (weakWolfe ask task o s) ∧
      TracksBrackets ask task o states := by
  obtain ⟨rest, hpath⟩ : Ends (bracketRound ask task o (task.bracketLimits o))
      (.start o.initialStep, s) (weakWolfe ask task o s) := ends_searchBracket _ _
  refine ⟨_, rfl, hpath, fun k a ha ↦ ?_⟩
  exact hpath.forall_take
    (P := fun earlier a ↦ a.1.Follows ask task o earlier ∧ a.1.Encloses ask task o earlier)
    (fun _ _ _ hround ha ↦ ⟨ha.1.round hround, .round ha.1 ha.2 hround⟩)
    ⟨Bracket.follows_start _, .start hstep⟩ ha

namespace TracksBrackets

variable {states : List (Bracket ℝ n × σ)}

theorem evaluations_eq (h : TracksBrackets ask task o states) {k : Nat} {a : Bracket ℝ n × σ}
    (ha : states[k]? = some a) : a.1.evaluations = k := by
  have hlt : k < states.length := (List.getElem?_eq_some_iff.1 ha).1
  rw [(h k a ha).1.evaluations_eq, List.length_take, Nat.min_eq_left hlt.le]

theorem nodup_steps (h : TracksBrackets ask task o states) : (states.map (·.1.step)).Nodup := by
  rw [List.Nodup, List.pairwise_map, List.pairwise_iff_getElem]
  intro j k hj hk hjk
  obtain ⟨hfollows, hencloses⟩ := h k _ (List.getElem?_eq_getElem hk)
  refine hencloses.step_ne hfollows _ ?_
  rw [List.mem_take_iff_getElem]
  exact ⟨j, lt_min hjk hj, rfl⟩

/-- A search that fails was stopped by its last look-up, or it may not go on. -/
theorem failure_cases (h : TracksBrackets ask task o states) {e : SearchError ℝ n} {s : σ}
    (hpath : Path (bracketRound ask task o limits) states (.error e, s)) (hslope : task.slope < 0) :
    (e.reason = .budgetExhausted ∧ ∃ c ∈ states, ask.answer task c = .stopped) ∨
      ((∃ step, e.reason = .notBracketed step) ∧
        ∀ c ∈ states.take e.evaluations, FoundShort ask task o c) ∨
      ((∃ lower upper, e.reason = .wolfeNotSatisfied lower upper) ∧
        ∃ c ∈ states.take e.evaluations, FoundLong ask task o c) := by
  obtain ⟨k, a, -, hk, hround⟩ := hpath.exists_last_getElem?
  rcases bracketRound_eq_error hround with ⟨hreason, hask⟩ | ⟨-, rfl⟩
  · exact .inl ⟨hreason, a, List.mem_of_getElem? hk, congrArg Prod.fst hask⟩
  · refine .inr ?_
    have hcount : (a.1.failure task).evaluations = k := h.evaluations_eq hk
    rw [hcount]
    exact (h k a hk).1.failure_cases hslope

end TracksBrackets

/-- **The bracket encloses what is left to try.**  A search passes states, one for each look-up and one
more if it gives up at a limit.  At each of them the lower end is the largest step that was found too short,
or zero, and the upper end the smallest that was found too long, if there was one.  The next step lies
strictly between: it is the initial one, doubled at every expansion, while there is no upper end, and the
middle of the bracket from then on, so the bracket is halved by every further look-up.  No step comes twice.

If the search fails along a direction that descends, it was stopped by its last look-up, or else it reports
that no step was bracketed exactly where all its steps were found too short, and otherwise that the bracket
gave no step. -/
theorem brackets_enclose {options : Options ℝ} (hoptions : options.IsValid) (ask : Oracle σ ℝ n)
    (task : SearchTask ℝ n) (s : σ) :
    ∃ states : List (Bracket ℝ n × σ),
      states.head? = some (.start options.search.initialStep, s) ∧
      Path (bracketRound ask task options.search (task.bracketLimits options.search)) states
        (weakWolfe ask task options.search s) ∧
      (∀ (k : Nat) (a : Bracket ℝ n × σ), states[k]? = some a →
        a.1.evaluations = k ∧ 0 ≤ a.1.lower ∧ a.1.lower < a.1.step ∧
        IsGreatest (insert 0
          {t | ∃ c ∈ states.take k, FoundShort ask task options.search c ∧ c.1.step = t}) a.1.lower ∧
        ((a.1.upper = .posInf ∧ (∀ c ∈ states.take k, ¬ FoundLong ask task options.search c) ∧
            a.1.step = options.search.initialStep * 2 ^ a.1.expansions) ∨
          ∃ u, a.1.upper = .finite u ∧
            IsLeast {t | ∃ c ∈ states.take k, FoundLong ask task options.search c ∧ c.1.step = t} u ∧
            a.1.step < u ∧ a.1.step = (a.1.lower + u) / 2 ∧
            ∀ b, states[k + 1]? = some b →
              ∃ u', b.1.upper = .finite u' ∧ u' - b.1.lower = (u - a.1.lower) / 2)) ∧
      (states.map (·.1.step)).Nodup ∧
      ∀ e s', weakWolfe ask task options.search s = (.error e, s') → task.slope < 0 →
        (e.reason = .budgetExhausted ∧ ∃ c ∈ states, ask.answer task c = .stopped) ∨
          (((∃ step, e.reason = .notBracketed step) ↔
              ∀ c ∈ states.take e.evaluations, FoundShort ask task options.search c) ∧
            ((∃ lower upper, e.reason = .wolfeNotSatisfied lower upper) ↔
              ¬ ∀ c ∈ states.take e.evaluations, FoundShort ask task options.search c)) := by
  obtain ⟨states, hhead, hpath, hstates⟩ := exists_states hoptions.initialStep_pos ask task s
  refine ⟨states, hhead, hpath, fun k a ha ↦ ?_, hstates.nodup_steps, fun e s' herror hslope ↦ ?_⟩
  · obtain ⟨hfollows, hencloses⟩ := hstates k a ha
    refine ⟨hstates.evaluations_eq ha, hencloses.lower_nonneg, hencloses.lower_lt,
      hencloses.isGreatest_lower hfollows, ?_⟩
    rcases hencloses.upper_cases hfollows with ⟨hinf, hnone⟩ | ⟨u, hu, hleast⟩
    · exact .inl ⟨hinf, hnone, hencloses.doubled hinf⟩
    · exact .inr ⟨u, hu, hleast, hencloses.lt_upper u hu, hencloses.middle u hu,
        fun b hb ↦ hencloses.width_eq (hpath.step_of_getElem? ha hb) hu⟩
  · rw [herror] at hpath
    rcases hstates.failure_cases hpath hslope with
      hstopped | ⟨⟨step, hreason⟩, hshort⟩ | ⟨⟨lower, upper, hreason⟩, c, hc, hlong⟩
    · exact .inl hstopped
    · refine .inr ⟨iff_of_true ⟨step, hreason⟩ hshort, iff_of_false ?_ (not_not.2 hshort)⟩
      rintro ⟨lower, upper, hreason'⟩
      cases hreason.symm.trans hreason'
    · have hnot : ¬ ∀ c ∈ states.take e.evaluations, FoundShort ask task options.search c :=
        fun hshort ↦ (hshort c hc).not_foundLong hlong
      refine .inr ⟨iff_of_false ?_ hnot, iff_of_true ⟨lower, upper, hreason⟩ hnot⟩
      rintro ⟨step, hreason'⟩
      cases hreason.symm.trans hreason'

/-- A search along the line that is refused everything. -/
noncomputable def refusedTask : SearchTask ℝ 1 where
  start := ⟨.replicate 1 0, 0, .replicate 1 (-1), [], []⟩
  direction := .replicate 1 1
  slope := -1
  mu := 1

@[inherit_doc refusedTask]
def refusing : Oracle Unit ℝ 1 := fun _ ↦ pure .rejected

/-- After the first refusal half the initial step is tried. -/
theorem brackets_enclose_refused :
    (Options.standard : Options ℝ).IsValid ∧
    ∃ states, Path (bracketRound refusing refusedTask (Options.standard : Options ℝ).search
        (refusedTask.bracketLimits (Options.standard : Options ℝ).search)) states
        (weakWolfe refusing refusedTask (Options.standard : Options ℝ).search ()) ∧
      ∃ a, states[1]? = some a ∧ FoundLong refusing refusedTask (Options.standard : Options ℝ).search a ∧
        a.1.step = 1 / 2 := by
  obtain ⟨states, hhead, hpath, hstates, -⟩ :=
    brackets_enclose Options.isValid_standard refusing refusedTask ()
  have hcap : refusedTask.evaluationCap (Options.standard : Options ℝ).search = none :=
    if_neg (by norm_num [refusedTask])
  have hround : bracketRound refusing refusedTask (Options.standard : Options ℝ).search
      (refusedTask.bracketLimits (Options.standard : Options ℝ).search) (.start 1, ())
      = .inl ((Bracket.start 1).after none true, ()) :=
    if_pos ⟨by rw [SearchTask.bracketLimits, hcap]; trivial, Nat.zero_le _, Nat.zero_le _⟩
  refine ⟨Options.isValid_standard, states, hpath, ?_⟩
  cases hpath with
  | last h =>
    cases hhead
    cases hround.symm.trans h
  | cons h hnext =>
    cases hhead
    cases hround.symm.trans h
    obtain ⟨-, -, -, -, ⟨hinf, -⟩ | ⟨u, hu, -, -, hmiddle, -⟩⟩ := hstates 1 _ rfl
    · cases hinf
    · cases hu
      refine ⟨_, rfl, .inl rfl, hmiddle.trans ?_⟩
      show ((0 : ℝ) + 1) / 2 = 1 / 2
      norm_num

end Exact

end ExactPenalty
