import Mathlib
import ExactPenalty.Proofs.Action
import ExactPenalty.Proofs.Machine
import ExactPenalty.Proofs.Linear
import ExactPenalty.Search

/-!
# The line searches, round by round

Both searches repeat a round: look one step up, then accept it, go on, or give up.  `bracketRound` and
`halvingRound` are these rounds, and `ends_searchBracket` and `ends_halveFrom` say that the searches
come to the results of their rounds.

From there it follows what an accepted step is.  The steps that are tried are positive throughout, so
along a direction that descends a sufficient decrease is a decrease: `lineSearch_eq_ok`.
-/

set_option autoImplicit false

namespace ExactPenalty

open Linear Matrix ExactPenalty.Action

/-! ## Verdicts -/

namespace SearchTask

variable {R : Type} [Scalar R] {n : Nat} {task : SearchTask R n} {o : SearchOptions R} {t : Trial R n}

theorem verdict_eq_tooLong_iff : task.verdict o t = .tooLong ↔
    t.isUsable = false ∨ task.decreaseBound o t.step < t.iterate.penalty := by
  rw [verdict]
  split_ifs <;> simp [*]

theorem verdict_eq_tooShort_iff : task.verdict o t = .tooShort ↔ t.isUsable = true ∧
    ¬ task.decreaseBound o t.step < t.iterate.penalty ∧
    dot t.iterate.penaltyGrad task.direction ≤ o.curvature * task.slope := by
  rw [verdict]
  split_ifs <;> simp [*]

/-- A trial is accepted because no test turns it down. -/
theorem verdict_eq_acceptable_iff_not : task.verdict o t = .acceptable ↔ t.isUsable = true ∧
    ¬ task.decreaseBound o t.step < t.iterate.penalty ∧
    ¬ dot t.iterate.penaltyGrad task.direction ≤ o.curvature * task.slope := by
  rw [verdict]
  split_ifs <;> simp [*]

end SearchTask

section Rounds

variable {σ R : Type} [Scalar R] {n : Nat} (ask : Oracle σ R n) (task : SearchTask R n)
    (o : SearchOptions R)

/-! ## Rounds of the bracketing search -/

/-- One round of the bracketing search. -/
def bracketRound (limits : BracketLimits) (a : Bracket R n × σ) :
    (Bracket R n × σ) ⊕ (SearchResult R n × σ) :=
  if a.1.MayContinue limits then
    match ask (task.pointAt a.1.step) a.2 with
    | (.stopped, s) =>
      .inr (.error
        { reason := .budgetExhausted, evaluations := a.1.evaluations, kept := a.1.best }, s)
    | (.rejected, s) => .inl (a.1.after none true, s)
    | (.evaluated observation, s) =>
      let trial := Trial.ofObservation task a.1.step observation
      match task.verdict o trial with
      | .acceptable => .inr (.ok { trial, evaluations := a.1.evaluations + 1 }, s)
      | .tooLong => .inl (a.1.after (some trial) true, s)
      | .tooShort => .inl (a.1.after (some trial) false, s)
  else .inr (.error (a.1.failure task), a.2)

variable {ask task o} {limits : BracketLimits}

theorem searchBracket_apply (a : Bracket R n × σ) :
    searchBracket ask task o limits a.1 a.2
      = (bracketRound ask task o limits a).elim
          (fun b ↦ searchBracket ask task o limits b.1 b.2) id := by
  rw [searchBracket, bracketRound]
  split_ifs
  · rw [bind_apply]
    rcases ask (task.pointAt a.1.step) a.2 with ⟨observation | _ | _, s⟩
    · cases hv : task.verdict o (Trial.ofObservation task a.1.step observation) <;>
        simp only [hv] <;> rfl
    · rfl
    · rfl
  · rfl

theorem Bracket.lower_after (b : Bracket R n) (trial : Option (Trial R n)) (tooLong : Bool) :
    (b.after trial tooLong).lower = if tooLong then b.lower else b.step := by
  have hnarrowed : ((b.counted trial).narrowed tooLong).lower = if tooLong then b.lower else b.step := by
    cases tooLong <;> rfl
  rw [after, advanced]
  split <;> exact hnarrowed

theorem Bracket.upper_after (b : Bracket R n) (trial : Option (Trial R n)) (tooLong : Bool) :
    (b.after trial tooLong).upper = if tooLong then .finite b.step else b.upper := by
  have hnarrowed :
      ((b.counted trial).narrowed tooLong).upper = if tooLong then .finite b.step else b.upper := by
    cases tooLong <;> rfl
  rw [after, advanced]
  split <;> exact hnarrowed

theorem Bracket.best_after (b : Bracket R n) (trial : Option (Trial R n)) (tooLong : Bool) :
    (b.after trial tooLong).best = (b.counted trial).best := by
  have hnarrowed : ((b.counted trial).narrowed tooLong).best = (b.counted trial).best := by
    rw [narrowed]
    split <;> rfl
  rw [after, advanced]
  split <;> exact hnarrowed

/-- A round that goes on has moved an end of the bracket to the step it tried. -/
theorem bracketRound_eq_inl {a b : Bracket R n × σ}
    (h : bracketRound ask task o limits a = .inl b) :
    a.1.MayContinue limits ∧ ∃ trial tooLong, b.1 = a.1.after trial tooLong := by
  rw [bracketRound] at h
  split_ifs at h with hcontinue
  refine ⟨hcontinue, ?_⟩
  rcases hask : ask (task.pointAt a.1.step) a.2 with ⟨observation | _ | _, s⟩ <;> rw [hask] at h
  · cases hv : task.verdict o (Trial.ofObservation task a.1.step observation) <;>
      simp only [hv] at h <;> cases h <;> exact ⟨_, _, rfl⟩
  · cases h
    exact ⟨_, _, rfl⟩
  · cases h

/-- A round that accepts has tried an acceptable step. -/
theorem bracketRound_eq_ok {a : Bracket R n × σ} {out : SearchOutcome R n} {s : σ}
    (h : bracketRound ask task o limits a = .inr (.ok out, s)) :
    ∃ observation, ask (task.pointAt a.1.step) a.2 = (.evaluated observation, s) ∧
      out = ⟨Trial.ofObservation task a.1.step observation, a.1.evaluations + 1⟩ ∧
      task.verdict o out.trial = .acceptable := by
  rw [bracketRound] at h
  split_ifs at h with hcontinue
  · rcases hask : ask (task.pointAt a.1.step) a.2 with ⟨observation | _ | _, s₁⟩ <;> rw [hask] at h
    · cases hv : task.verdict o (Trial.ofObservation task a.1.step observation) <;>
        simp only [hv] at h <;> cases h
      exact ⟨observation, rfl, rfl, hv⟩
    · cases h
    · cases h
  · cases h

theorem ends_searchBracket (b : Bracket R n) (s : σ) :
    Ends (bracketRound ask task o limits) (b, s) (searchBracket ask task o limits b s) := by
  refine ends_of_measure (f := fun a ↦ searchBracket ask task o limits a.1 a.2)
    searchBracket_apply (fun a ↦ a.1.roundsLeft limits) (fun a b hab ↦ ?_) (b, s)
  obtain ⟨hcontinue, trial, tooLong, hb⟩ := bracketRound_eq_inl hab
  rw [hb]
  exact Bracket.roundsLeft_after_lt hcontinue trial tooLong

/-- An acceptable first step ends the search. -/
theorem weakWolfe_of_acceptable {observation : Observation R n} {s s' : σ}
    (hcap : BelowCap 0 (task.evaluationCap o))
    (hask : ask (task.pointAt o.initialStep) s = (.evaluated observation, s'))
    (hverdict : task.verdict o (.ofObservation task o.initialStep observation) = .acceptable) :
    weakWolfe ask task o s = (.ok ⟨.ofObservation task o.initialStep observation, 1⟩, s') := by
  have hcontinue : (Bracket.start o.initialStep : Bracket R n).MayContinue (task.bracketLimits o) :=
    ⟨hcap, Nat.zero_le _, Nat.zero_le _⟩
  have hround : bracketRound ask task o (task.bracketLimits o) (.start o.initialStep, s)
      = .inr (.ok ⟨.ofObservation task o.initialStep observation, 1⟩, s') := by
    rw [bracketRound, if_pos hcontinue]
    dsimp only [Bracket.start]
    rw [hask]
    dsimp only
    rw [hverdict]
  rw [weakWolfe]
  exact (searchBracket_apply (.start o.initialStep, s)).trans (by rw [hround]; rfl)

/-! ## Rounds of the backtracking search -/

/-- The state of the backtracking search before a look-up. -/
structure Halving (R : Type) (n : Nat) where
  left : Nat
  evaluations : Nat
  step : R
  best : Option (Trial R n)

/-- The state after a step that was not accepted, with the trial it gave. -/
def Halving.after (h : Halving R n) (trial : Option (Trial R n)) : Halving R n where
  left := h.left - 1
  evaluations := h.evaluations + 1
  step := h.step * 0.5
  best := match trial with
    | some t => Trial.keepLower h.best t
    | none => h.best

variable (ask task o) in
/-- One round of the backtracking search. -/
def halvingRound (exhausted : SearchFailure R) (a : Halving R n × σ) :
    (Halving R n × σ) ⊕ (SearchResult R n × σ) :=
  if a.1.left = 0 then
    .inr (.error { reason := exhausted, evaluations := a.1.evaluations, kept := a.1.best }, a.2)
  else
    match ask (task.pointAt a.1.step) a.2 with
    | (.stopped, s) =>
      .inr (.error
        { reason := .budgetExhausted, evaluations := a.1.evaluations, kept := a.1.best }, s)
    | (.rejected, s) => .inl (a.1.after none, s)
    | (.evaluated observation, s) =>
      let trial := Trial.ofObservation task a.1.step observation
      if trial.isUsable = true ∧ trial.Decreases task o then
        .inr (.ok { trial, evaluations := a.1.evaluations + 1 }, s)
      else .inl (a.1.after (some trial), s)

variable {exhausted : SearchFailure R}

theorem halveFrom_apply (a : Halving R n × σ) :
    halveFrom ask task o exhausted a.1.left a.1.evaluations a.1.step a.1.best a.2
      = (halvingRound ask task o exhausted a).elim (fun b ↦
          halveFrom ask task o exhausted b.1.left b.1.evaluations b.1.step b.1.best b.2) id := by
  obtain ⟨⟨left, evaluations, step, best⟩, s⟩ := a
  cases left with
  | zero => rfl
  | succ left =>
    rw [halveFrom, halvingRound, if_neg (Nat.succ_ne_zero left), bind_apply]
    rcases ask (task.pointAt step) s with ⟨observation | _ | _, s₁⟩
    · dsimp only
      split_ifs <;> rfl
    · rfl
    · rfl

/-- A round that goes on halves the step. -/
theorem halvingRound_eq_inl {a b : Halving R n × σ}
    (h : halvingRound ask task o exhausted a = .inl b) :
    a.1.left ≠ 0 ∧ ∃ trial, b.1 = a.1.after trial := by
  rw [halvingRound] at h
  split_ifs at h with hleft
  refine ⟨hleft, ?_⟩
  rcases hask : ask (task.pointAt a.1.step) a.2 with ⟨observation | _ | _, s⟩ <;> rw [hask] at h
  · dsimp only at h
    split_ifs at h
    cases h
    exact ⟨some _, rfl⟩
  · cases h
    exact ⟨none, rfl⟩
  · cases h

/-- A round that accepts has tried a usable step of sufficient decrease. -/
theorem halvingRound_eq_ok {a : Halving R n × σ} {out : SearchOutcome R n} {s : σ}
    (h : halvingRound ask task o exhausted a = .inr (.ok out, s)) :
    ∃ observation, ask (task.pointAt a.1.step) a.2 = (.evaluated observation, s) ∧
      out = ⟨Trial.ofObservation task a.1.step observation, a.1.evaluations + 1⟩ ∧
      out.trial.isUsable = true ∧ out.trial.Decreases task o := by
  rw [halvingRound] at h
  split_ifs at h with hleft
  · cases h
  · rcases hask : ask (task.pointAt a.1.step) a.2 with ⟨observation | _ | _, s₁⟩ <;> rw [hask] at h
    · dsimp only at h
      split_ifs at h with haccept
      cases h
      exact ⟨observation, rfl, rfl, haccept⟩
    · cases h
    · cases h

/-- A round that looks up its step. -/
theorem halvingRound_of_evaluated {a : Halving R n × σ} {observation : Observation R n} {s : σ}
    (hleft : a.1.left ≠ 0) (hask : ask (task.pointAt a.1.step) a.2 = (.evaluated observation, s)) :
    halvingRound ask task o exhausted a =
      if (Trial.ofObservation task a.1.step observation).isUsable = true ∧
          (Trial.ofObservation task a.1.step observation).Decreases task o then
        .inr (.ok ⟨.ofObservation task a.1.step observation, a.1.evaluations + 1⟩, s)
      else .inl (a.1.after (some (.ofObservation task a.1.step observation)), s) := by
  rw [halvingRound, if_neg hleft, hask]

variable (ask task o exhausted) in
theorem ends_halveFrom (h : Halving R n) (s : σ) :
    Ends (halvingRound ask task o exhausted) (h, s)
      (halveFrom ask task o exhausted h.left h.evaluations h.step h.best s) := by
  refine ends_of_measure (f := fun a ↦
      halveFrom ask task o exhausted a.1.left a.1.evaluations a.1.step a.1.best a.2)
    halveFrom_apply (fun a ↦ a.1.left) (fun a b hab ↦ ?_) (h, s)
  obtain ⟨hleft, trial, hb⟩ := halvingRound_eq_inl hab
  rw [hb]
  exact Nat.sub_one_lt hleft

/-- A first step of sufficient decrease ends the search. -/
theorem backtracking_of_decreases {observation : Observation R n} {s s' : σ}
    (hlimit : task.backtrackingLimit o ≠ 0)
    (hask : ask ((task.forBacktracking o).pointAt o.initialStep) s = (.evaluated observation, s'))
    (husable : (Trial.ofObservation (task.forBacktracking o) o.initialStep observation).isUsable = true)
    (hdecreases : (Trial.ofObservation (task.forBacktracking o) o.initialStep observation).Decreases
      (task.forBacktracking o) o) :
    backtracking ask task o s
      = (.ok ⟨.ofObservation (task.forBacktracking o) o.initialStep observation, 1⟩, s') := by
  have haccept := And.intro husable hdecreases
  refine (halveFrom_apply (⟨task.backtrackingLimit o, 0, o.initialStep, none⟩, s)).trans ?_
  rw [halvingRound_of_evaluated hlimit hask]
  dsimp only
  rw [if_pos haccept]
  rfl

/-- A first step that is not looked up ends it too. -/
theorem backtracking_of_stopped {s s' : σ} (hlimit : task.backtrackingLimit o ≠ 0)
    (hask : ask ((task.forBacktracking o).pointAt o.initialStep) s = (.stopped, s')) :
    backtracking ask task o s = (.error ⟨.budgetExhausted, 0, none⟩, s') := by
  refine (halveFrom_apply (⟨task.backtrackingLimit o, 0, o.initialStep, none⟩, s)).trans ?_
  rw [halvingRound, if_neg hlimit, hask]
  rfl

theorem SearchTask.mu_forBacktracking : (task.forBacktracking o).mu = task.mu := by
  rw [forBacktracking, normalized]
  split_ifs <;> rfl

end Rounds

/-! ## The steps that are tried are positive -/

section Positive

variable {σ : Type} {n : Nat} {ask : Oracle σ ℝ n} {task : SearchTask ℝ n} {o : SearchOptions ℝ}

/-- A bracket in which every step is positive. -/
structure Bracket.IsPositive (b : Bracket ℝ n) : Prop where
  lower_nonneg : 0 ≤ b.lower
  step_pos : 0 < b.step
  upper_pos : b.upper = .posInf ∨ ∃ u, b.upper = .finite u ∧ 0 < u

theorem Bracket.isPositive_start {step : ℝ} (h : 0 < step) :
    (Bracket.start step : Bracket ℝ n).IsPositive :=
  ⟨le_rfl, h, .inl rfl⟩

/-- Narrowing a bracket keeps its steps positive: a middle lies above the lower end, and twice the
lower end is twice a step that was tried. -/
theorem Bracket.IsPositive.after {b : Bracket ℝ n} (hb : b.IsPositive) (trial : Option (Trial ℝ n))
    (tooLong : Bool) : (b.after trial tooLong).IsPositive := by
  obtain ⟨hlower, hstep, hupper⟩ := hb
  cases tooLong with
  | true =>
    refine ⟨hlower, ?_, .inr ⟨b.step, rfl, hstep⟩⟩
    show 0 < 0.5 * (b.lower + b.step)
    positivity
  | false =>
    have hunfold : b.after trial false = ({ b.counted trial with lower := b.step }).advanced := rfl
    rw [hunfold, advanced]
    obtain hinf | ⟨u, hu, hpos⟩ := hupper
    · have hnone : ({ b.counted trial with lower := b.step }).upper.finite? = none := by
        show b.upper.finite? = none
        rw [hinf]
        rfl
      rw [hnone]
      refine ⟨hstep.le, ?_, .inl hinf⟩
      show 0 < (1 + 1) * b.step
      positivity
    · have hsome : ({ b.counted trial with lower := b.step }).upper.finite? = some u := by
        show b.upper.finite? = some u
        rw [hu, Extended.finite?_finite]
      rw [hsome]
      refine ⟨hstep.le, ?_, .inr ⟨u, hu, hpos⟩⟩
      show 0 < 0.5 * (b.step + u)
      positivity

/-! ## Accepted steps -/

@[simp] theorem halvingSteps_real (length : ℝ) : halvingSteps length = bisectionLimit length + 1 :=
  if_pos (.inl rfl)

@[simp] theorem Trial.isUsable_real (t : Trial ℝ n) : t.isUsable = true := by
  simp [Trial.isUsable, Iterate.isUsable]

/-- In exact arithmetic the weak Wolfe conditions are the only ones. -/
theorem SearchTask.verdict_eq_acceptable_iff {t : Trial ℝ n} :
    task.verdict o t = .acceptable ↔ t.Decreases task o ∧
      o.curvature * task.slope < dot t.iterate.penaltyGrad task.direction := by
  rw [verdict_eq_acceptable_iff_not, not_lt, not_le, Trial.Decreases]
  exact and_iff_right t.isUsable_real

/-- Along a direction that descends, a sufficient decrease is a decrease. -/
theorem SearchTask.decreaseBound_lt {step : ℝ} (hslope : task.slope < 0) (hdecrease : 0 < o.decrease)
    (hstep : 0 < step) : task.decreaseBound o step < task.startPenalty :=
  add_lt_of_neg_right _ (mul_neg_of_pos_of_neg (mul_pos hdecrease hstep) hslope)

/-- A step that the bracketing search accepts is positive and satisfies the weak Wolfe
conditions. -/
theorem weakWolfe_eq_ok {out : SearchOutcome ℝ n} {s s' : σ} (hstep : 0 < o.initialStep)
    (h : weakWolfe ask task o s = (.ok out, s')) :
    ∃ step s₁ observation, ask (task.pointAt step) s₁ = (.evaluated observation, s') ∧
      out.trial = .ofObservation task step observation ∧ 0 < step ∧
      out.trial.Decreases task o ∧
      o.curvature * task.slope < dot out.trial.iterate.penaltyGrad task.direction := by
  have hends : Ends (bracketRound ask task o (task.bracketLimits o)) (.start o.initialStep, s)
      (.ok out, s') := h ▸ ends_searchBracket _ s
  obtain ⟨⟨b, s₁⟩, hb, hlast⟩ := hends.exists_last (P := fun a ↦ a.1.IsPositive)
    (fun a b hab ha ↦ by
      obtain ⟨-, trial, tooLong, hb⟩ := bracketRound_eq_inl hab
      rw [hb]
      exact ha.after trial tooLong)
    (Bracket.isPositive_start hstep)
  obtain ⟨observation, hask, rfl, hv⟩ := bracketRound_eq_ok hlast
  exact ⟨b.step, s₁, observation, hask, rfl, hb.step_pos, SearchTask.verdict_eq_acceptable_iff.1 hv⟩

/-- In exact arithmetic every trial can be kept, so one of them is. -/
theorem Bracket.isSome_best_after (b : Bracket ℝ n) (t : Trial ℝ n) (tooLong : Bool) :
    (b.after (some t) tooLong).best.isSome = true := by
  rw [best_after]
  show (Trial.keepLower b.best t).isSome = true
  rw [Trial.keepLower.eq_def, if_pos t.isUsable_real]
  cases b.best with
  | none => rfl
  | some best =>
    dsimp only
    split_ifs <;> rfl

/-- Where every step is too short, the search does not find one that is too long; but it keeps one of
its trials. -/
theorem weakWolfe_of_tooShort (hslope : task.slope < 0) (hstep : 0 < o.initialStep)
    (hcap : BelowCap 0 (task.evaluationCap o))
    (hask : ∀ step s, 0 < step → ∃ observation s', ask (task.pointAt step) s
      = (.evaluated observation, s') ∧ task.verdict o (.ofObservation task step observation) = .tooShort)
    (s : σ) : ∃ e s', weakWolfe ask task o s = (.error e, s') ∧ (∃ t, e.reason = .notBracketed t) ∧
      e.kept.isSome = true := by
  have hround {a : Bracket ℝ n × σ} (ha : a.1.IsPositive)
      (hcontinue : a.1.MayContinue (task.bracketLimits o)) :
      ∃ trial s', bracketRound ask task o (task.bracketLimits o) a
        = .inl (a.1.after (some trial) false, s') := by
    obtain ⟨observation, s', hasked, hshort⟩ := hask a.1.step a.2 ha.step_pos
    refine ⟨.ofObservation task a.1.step observation, s', ?_⟩
    rw [bracketRound, if_pos hcontinue, hasked]
    dsimp only
    rw [hshort]
  have hends : Ends (bracketRound ask task o (task.bracketLimits o)) (.start o.initialStep, s)
      (weakWolfe ask task o s) := ends_searchBracket _ s
  obtain ⟨a, ⟨hpositive, hupper, hkept⟩, hlast⟩ := hends.exists_last
    (P := fun a ↦ a.1.IsPositive ∧ a.1.upper = .posInf ∧
      (a.1 = .start o.initialStep ∨ a.1.best.isSome = true))
    (fun a b hab ⟨ha, hupper, _⟩ ↦ by
      obtain ⟨trial, s', hround⟩ := hround ha (bracketRound_eq_inl hab).1
      cases hround.symm.trans hab
      exact ⟨ha.after _ _, (Bracket.upper_after _ _ _).trans hupper, .inr (a.1.isSome_best_after _ _)⟩)
    ⟨Bracket.isPositive_start hstep, rfl, .inl rfl⟩
  by_cases hcontinue : a.1.MayContinue (task.bracketLimits o)
  · obtain ⟨trial, s', hround⟩ := hround hpositive hcontinue
    cases hround.symm.trans hlast
  · rw [bracketRound, if_neg hcontinue] at hlast
    refine ⟨_, _, (Sum.inr.inj hlast).symm, ⟨a.1.step, ?_⟩, ?_⟩
    · rw [Bracket.failure, hupper]
      exact if_neg hslope.not_ge
    · refine hkept.resolve_left fun hstart ↦ hcontinue ?_
      rw [hstart]
      exact ⟨hcap, Nat.zero_le _, Nat.zero_le _⟩

theorem Halving.after_step_pos {h : Halving ℝ n} (hpos : 0 < h.step) (trial : Option (Trial ℝ n)) :
    0 < (h.after trial).step := by
  show 0 < h.step * 0.5
  positivity

/-- A step that the backtracking search accepts is positive and decreases sufficiently along the
direction as backtracking sees it. -/
theorem backtracking_eq_ok {out : SearchOutcome ℝ n} {s s' : σ} (hstep : 0 < o.initialStep)
    (h : backtracking ask task o s = (.ok out, s')) :
    ∃ step s₁ observation,
      ask ((task.forBacktracking o).pointAt step) s₁ = (.evaluated observation, s') ∧
      out.trial = .ofObservation (task.forBacktracking o) step observation ∧ 0 < step ∧
      out.trial.Decreases (task.forBacktracking o) o := by
  rw [backtracking] at h
  have hends := ends_halveFrom ask (task.forBacktracking o) o
    (if 0 ≤ task.slope then .nonDescent else .armijoNotSatisfied)
    ⟨task.backtrackingLimit o, 0, o.initialStep, none⟩ s
  rw [h] at hends
  obtain ⟨⟨a, s₁⟩, ha, hlast⟩ := hends.exists_last (P := fun a ↦ 0 < a.1.step)
    (fun a b hab ha ↦ by
      obtain ⟨-, trial, hb⟩ := halvingRound_eq_inl hab
      rw [hb]
      exact Halving.after_step_pos ha trial)
    hstep
  obtain ⟨observation, hask, rfl, -, hdecreases⟩ := halvingRound_eq_ok hlast
  exact ⟨a.step, s₁, observation, hask, rfl, ha, hdecreases⟩

/-- The slope along a normalised direction has the sign of the slope along the direction. -/
theorem SearchTask.slope_forBacktracking_neg (h : task.slope < 0) :
    (task.forBacktracking o).slope < 0 := by
  rw [forBacktracking]
  split_ifs
  · rw [normalized]
    split_ifs with hlength
    · exact div_neg_of_neg_of_pos h hlength
    · exact h
  · exact h

theorem SearchTask.startPenalty_forBacktracking :
    (task.forBacktracking o).startPenalty = task.startPenalty := by
  rw [forBacktracking, normalized]
  split_ifs <;> rfl

/-- **An accepted step lowers the penalty function**, at the penalty parameter of the search. -/
theorem lineSearch_eq_ok {out : SearchOutcome ℝ n} {s s' : σ} (hstep : 0 < o.initialStep)
    (hdecrease : 0 < o.decrease) (hslope : task.slope < 0)
    (h : lineSearch ask task o s = (.ok out, s')) :
    ∃ x s₁ observation, ask x s₁ = (.evaluated observation, s') ∧
      out.trial.iterate = observation.weighed task.mu ∧
      observation.penaltyAt task.mu < task.start.penaltyAt task.mu := by
  rw [lineSearch] at h
  split_ifs at h with hback
  · obtain ⟨step, s₁, observation, hask, htrial, hpos, hdecreases⟩ := backtracking_eq_ok hstep h
    rw [htrial] at hdecreases ⊢
    refine ⟨_, s₁, observation, hask, ?_, ?_⟩
    · rw [Trial.ofObservation, SearchTask.mu_forBacktracking]
    · have hlt := SearchTask.decreaseBound_lt (SearchTask.slope_forBacktracking_neg (o := o) hslope)
        hdecrease hpos
      rw [SearchTask.startPenalty_forBacktracking] at hlt
      have hle : observation.penaltyAt (task.forBacktracking o).mu
          ≤ (task.forBacktracking o).decreaseBound o step := hdecreases
      rw [SearchTask.mu_forBacktracking] at hle
      exact hle.trans_lt hlt
  · obtain ⟨step, s₁, observation, hask, htrial, hpos, hdecreases, -⟩ := weakWolfe_eq_ok hstep h
    rw [htrial] at hdecreases ⊢
    exact ⟨_, s₁, observation, hask, rfl,
      hdecreases.trans_lt (SearchTask.decreaseBound_lt hslope hdecrease hpos)⟩

end Positive

end ExactPenalty
