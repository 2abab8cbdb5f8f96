import ExactPenalty.Proofs.Search.Brackets
import ExactPenalty.Proofs.Search.Refusals

/-!
# What backtracking tries

Backtracking tries the initial step and its halvings.  A bracketing search that has found every step too long
has the lower end zero, so the middle of its bracket is half the step it tried last: up to there it does what
backtracking does.  The two part at the first sufficient decrease.  Backtracking accepts it, and the
bracketing search does so too if the slope has risen; otherwise it goes on from there.

Along a normalised direction the steps do not depend on how long the given direction was, and neither does
anything else that backtracking does: the slope is divided by the same length, and the limits and the reason
of a failure look at the unit direction or at the sign of the slope only.

## What is here

* `Lookup.Decreases` — an answer that backtracking accepts, and `lookUpsOf_backtracking`: it asks for the
  halvings of the initial step until it gets one.
* `Bracket.IsHalving` — the bracket of a search that has found every step too long, beside the state of
  backtracking.  Rounds keep it (`exists_bracketRound_eq_inl`), so the bracketing search comes along to the
  last round of backtracking (`exists_bracketRound_eq_error`, `bracketRound_of_accepted`).
* `searches_agree_until_decrease` — the statement about whole searches.
* `SearchTask.stretched` — the same search along a longer or shorter direction, and
  `backtracking_ignores_length`.
-/

set_option autoImplicit false

namespace ExactPenalty

open Linear ExactPenalty.Action

/-! ## The look-ups of backtracking -/

section Halvings

variable {σ R : Type} [Scalar R] {n : Nat} {ask : Oracle σ R n} {task : SearchTask R n}
    {o : SearchOptions R} {exhausted : SearchFailure R}

/-- The answer is a usable trial of a step, and the penalty has decreased sufficiently. -/
def Lookup.Decreases (task : SearchTask R n) (o : SearchOptions R) (step : R) : Lookup R n → Prop
  | evaluated observation => (observation.weighed task.mu).isUsable = true ∧
      (observation.weighed task.mu).penalty ≤ task.decreaseBound o step
  | rejected => False
  | stopped => False

/-- The step after a number of halvings. -/
def SearchOptions.halving (o : SearchOptions R) (k : Nat) : R := (· * 0.5)^[k] o.initialStep

/-- Every look-up of the list was made at its halving of the initial step, and did not decrease the penalty
sufficiently. -/
def IsHalvings (task : SearchTask R n) (o : SearchOptions R) (log : List (Vector R n × Lookup R n)) : Prop :=
  ∀ k x answer, log[k]? = some (x, answer) →
    x = task.pointAt (o.halving k) ∧ ¬ answer.Decreases task o (o.halving k)

/-- One more look-up, at the step after the last one. -/
theorem forall_getElem?_concat {α : Type} {P : Nat → α → Prop} {log : List α} {entry : α}
    (h : ∀ k a, log[k]? = some a → P k a) (hentry : P log.length entry) :
    ∀ k a, (log ++ [entry])[k]? = some a → P k a := by
  intro k a ha
  rcases lt_trichotomy k log.length with hlt | rfl | hgt
  · rw [List.getElem?_append_left hlt] at ha
    exact h k a ha
  · rw [List.getElem?_concat_length] at ha
    cases ha
    exact hentry
  · rw [List.getElem?_eq_none (by rw [List.length_append, List.length_singleton]; omega)] at ha
    cases ha

/-- A round that goes on has not got a sufficient decrease. -/
theorem halvingRound_eq_inl_asked {a b : Halving R n × σ}
    (h : halvingRound ask task o exhausted a = .inl b) :
    b.2 = (ask (task.pointAt a.1.step) a.2).2 ∧
      ¬ (ask (task.pointAt a.1.step) a.2).1.Decreases task o a.1.step := by
  rw [halvingRound] at h
  split_ifs at h
  rcases hask : ask (task.pointAt a.1.step) a.2 with ⟨observation | _ | _, s⟩ <;> rw [hask] at h
  · dsimp only at h
    split_ifs at h with haccept
    cases h
    exact ⟨rfl, haccept⟩
  · cases h
    exact ⟨rfl, id⟩
  · cases h

/-- A round that ends did not ask, or it accepted just where it got a sufficient decrease. -/
theorem halvingRound_eq_inr_cases {a : Halving R n × σ} {r : SearchResult R n} {s : σ}
    (h : halvingRound ask task o exhausted a = .inr (r, s)) :
    (s = a.2 ∧ ∀ out, r ≠ .ok out) ∨ (s = (ask (task.pointAt a.1.step) a.2).2 ∧
      ((ask (task.pointAt a.1.step) a.2).1.Decreases task o a.1.step ↔ ∃ out, r = .ok out)) := by
  rw [halvingRound] at h
  split_ifs at h
  · cases h
    refine .inl ⟨rfl, fun out hout ↦ ?_⟩
    cases hout
  · rcases hask : ask (task.pointAt a.1.step) a.2 with ⟨observation | _ | _, s'⟩ <;> rw [hask] at h
    · dsimp only at h
      split_ifs at h with haccept
      cases h
      exact .inr ⟨rfl, iff_of_true haccept ⟨_, rfl⟩⟩
    · cases h
    · cases h
      refine .inr ⟨rfl, iff_of_false id ?_⟩
      rintro ⟨out, hout⟩
      cases hout

/-- Backtracking has the first halvings of the initial step behind it. -/
structure HasHalved (task : SearchTask R n) (o : SearchOptions R)
    (a : Halving R n × σ × List (Vector R n × Lookup R n)) : Prop where
  isAfter : a.1.IsAfter o a.2.2.length
  isHalvings : IsHalvings task o a.2.2

theorem HasHalved.round {a b : Halving R n × σ × List (Vector R n × Lookup R n)}
    (ha : HasHalved task o a) (h : halvingRound ask.recorded task o exhausted a = .inl b) :
    HasHalved task o b := by
  obtain ⟨hstate, hdecreases⟩ := halvingRound_eq_inl_asked h
  obtain ⟨-, trial, hb⟩ := halvingRound_eq_inl h
  have hlog : b.2.2 = a.2.2 ++ [(task.pointAt a.1.step, (ask (task.pointAt a.1.step) a.2.1).1)] := by
    rw [hstate]
    rfl
  constructor
  · rw [hb, hlog, List.length_append, List.length_singleton]
    exact ha.isAfter.after trial
  · intro k x answer hanswer
    rw [hlog] at hanswer
    refine forall_getElem?_concat (P := fun k entry ↦ entry.1 = task.pointAt (o.halving k) ∧
      ¬ entry.2.Decreases task o (o.halving k)) (fun k a ↦ ha.isHalvings k a.1 a.2) ?_ k _ hanswer
    rw [SearchOptions.halving, ← ha.isAfter.step_eq]
    exact ⟨rfl, hdecreases⟩

omit [Scalar R] in
/-- The results of a search are those of the same search that is recorded. -/
theorem eq_of_mirrors_recorded (search : SearchMethod R n)
    (h : Mirrors (fun w s ↦ w.1 = s) id (search ask.recorded task o) (search ask task o)) (s : σ) :
    search ask.recorded task o (s, [])
      = ((search ask task o s).1, (search ask task o s).2, lookUpsOf search ask task o s) := by
  obtain ⟨hresult, hstate⟩ := h (s, []) s rfl
  exact Prod.ext hresult.symm (Prod.ext hstate rfl)

@[inherit_doc eq_of_mirrors_recorded]
theorem backtracking_recorded (ask : Oracle σ R n) (task : SearchTask R n) (o : SearchOptions R) (s : σ) :
    backtracking ask.recorded task o (s, [])
      = ((backtracking ask task o s).1, (backtracking ask task o s).2, lookUpsOf backtracking ask task o s) :=
  eq_of_mirrors_recorded backtracking ((ask.alikeAt_recorded task.mu).mirrors_backtracking o) s

@[inherit_doc eq_of_mirrors_recorded]
theorem weakWolfe_recorded (ask : Oracle σ R n) (task : SearchTask R n) (o : SearchOptions R) (s : σ) :
    weakWolfe ask.recorded task o (s, [])
      = ((weakWolfe ask task o s).1, (weakWolfe ask task o s).2, lookUpsOf weakWolfe ask task o s) :=
  eq_of_mirrors_recorded weakWolfe ((ask.alikeAt_recorded task.mu).mirrors_weakWolfe o) s

/-- **Backtracking asks for the halvings of the initial step**, until it gets a sufficient decrease. -/
theorem lookUpsOf_backtracking (ask : Oracle σ R n) (task : SearchTask R n) (o : SearchOptions R) (s : σ)
    {k : Nat} {x : Vector R n} {answer : Lookup R n}
    (hk : (lookUpsOf backtracking ask task o s)[k]? = some (x, answer)) :
    x = (task.forBacktracking o).pointAt (o.halving k) ∧
      (answer.Decreases (task.forBacktracking o) o (o.halving k) ↔
        k + 1 = (lookUpsOf backtracking ask task o s).length ∧
          ∃ out, (backtracking ask task o s).1 = .ok out) := by
  have hends := ends_halveFrom ask.recorded (task.forBacktracking o) o
    (if 0 ≤ task.slope then .nonDescent else .armijoNotSatisfied)
    ⟨task.backtrackingLimit o, 0, o.initialStep, none⟩ (s, [])
  change Ends _ _ (backtracking ask.recorded task o (s, [])) at hends
  rw [backtracking_recorded] at hends
  obtain ⟨a, ha, hlast⟩ := hends.exists_last (P := HasHalved (task.forBacktracking o) o)
    (fun _ _ hround ha ↦ ha.round hround) ⟨⟨rfl, rfl⟩, nofun⟩
  have hearlier {j : Nat} {entry : Vector R n × Lookup R n} (hj : a.2.2[j]? = some entry) :=
    ha.isHalvings j entry.1 entry.2 hj
  rcases halvingRound_eq_inr_cases hlast with ⟨hstate, hfails⟩ | ⟨hstate, hdecreases⟩
  · have hlog : lookUpsOf backtracking ask task o s = a.2.2 := by rw [← hstate]
    rw [hlog] at hk
    exact ⟨(hearlier hk).1, iff_of_false (hearlier hk).2 fun ⟨_, out, hout⟩ ↦ hfails out hout⟩
  · have hlog : lookUpsOf backtracking ask task o s = a.2.2 ++
        [((task.forBacktracking o).pointAt a.1.step, (ask ((task.forBacktracking o).pointAt a.1.step) a.2.1).1)] :=
      (Prod.mk.inj hstate).2
    rw [hlog] at hk ⊢
    rw [List.length_append, List.length_singleton]
    refine forall_getElem?_concat (P := fun k entry ↦ entry.1 = (task.forBacktracking o).pointAt (o.halving k) ∧
      (entry.2.Decreases (task.forBacktracking o) o (o.halving k) ↔ k + 1 = a.2.2.length + 1 ∧ _))
      (fun j entry hj ↦ ?_) ?_ k _ hk
    · have hlt : j < a.2.2.length := (List.getElem?_eq_some_iff.1 hj).1
      exact ⟨(hearlier hj).1, iff_of_false (hearlier hj).2 (by omega)⟩
    · rw [SearchOptions.halving, ← ha.isAfter.step_eq]
      exact ⟨rfl, hdecreases.trans (and_iff_right rfl).symm⟩

end Halvings

/-! ## The bracketing search goes on -/

section Rounds

variable {σ R : Type} [Scalar R] {n : Nat} {ask : Oracle σ R n} {task : SearchTask R n}
    {o : SearchOptions R} {limits : BracketLimits}

/-- A round counts on. -/
theorem evaluations_bracketRound (a : Bracket R n × σ) :
    a.1.evaluations ≤ (bracketRound ask task o limits a).elim
      (fun b ↦ b.1.evaluations) fun r ↦ r.1.evaluations := by
  rw [bracketRound]
  split_ifs
  · rcases ask (task.pointAt a.1.step) a.2 with ⟨observation | _ | _, s⟩
    · dsimp only
      generalize Trial.ofObservation task a.1.step observation = trial
      cases task.verdict o trial with
      | acceptable => exact Nat.le_succ _
      | tooLong => exact (Nat.le_succ _).trans_eq (a.1.evaluations_after _ _).symm
      | tooShort => exact (Nat.le_succ _).trans_eq (a.1.evaluations_after _ _).symm
    · exact (Nat.le_succ _).trans_eq (a.1.evaluations_after _ _).symm
    · exact le_rfl
  · exact le_rfl

theorem evaluations_le_of_ends {a : Bracket R n × σ} {r : SearchResult R n × σ}
    (h : Ends (bracketRound ask task o limits) a r) : a.1.evaluations ≤ r.1.evaluations :=
  h.rel (f := fun a ↦ a.1.evaluations) (g := fun r ↦ r.1.evaluations) evaluations_bracketRound

/-- A round that is recorded goes on with the list. -/
theorem prefix_bracketRound (a : Bracket R n × σ × List (Vector R n × Lookup R n)) :
    a.2.2 <+: (bracketRound ask.recorded task o limits a).elim (fun b ↦ b.2.2) fun r ↦ r.2.2 := by
  have hasked : a.2.2 <+: (ask.recorded (task.pointAt a.1.step) a.2).2.2 := List.prefix_append _ _
  rw [bracketRound]
  split_ifs
  · rcases hask : ask.recorded (task.pointAt a.1.step) a.2 with ⟨observation | _ | _, s⟩ <;>
      rw [hask] at hasked
    · dsimp only
      cases task.verdict o (Trial.ofObservation task a.1.step observation) <;> exact hasked
    · exact hasked
    · exact hasked
  · exact List.prefix_rfl

theorem prefix_of_ends {a : Bracket R n × σ × List (Vector R n × Lookup R n)}
    {r : SearchResult R n × σ × List (Vector R n × Lookup R n)}
    (h : Ends (bracketRound ask.recorded task o limits) a r) : a.2.2 <+: r.2.2 :=
  h.rel (f := fun a ↦ a.2.2) (g := fun r ↦ r.2.2) prefix_bracketRound

end Rounds

/-! ## Up to the first sufficient decrease -/

section Exact

variable {σ : Type} {n : Nat} {ask : Oracle σ ℝ n} {task : SearchTask ℝ n} {o : SearchOptions ℝ}
    {limits : BracketLimits} {exhausted : SearchFailure ℝ}

/-- How often a search that finds every step too long may ask. -/
def BracketLimits.halvings (limits : BracketLimits) : Nat :=
  match limits.evaluations with
  | some cap => min cap (limits.bisections + 1)
  | none => limits.bisections + 1

/-- A bracket of which only the upper end has moved, beside the state of backtracking. -/
structure Bracket.IsHalving (limits : BracketLimits) (b : Bracket ℝ n) (h : Halving ℝ n) : Prop where
  step_eq : b.step = h.step
  evaluations_eq : b.evaluations = h.evaluations
  best_eq : b.best = h.best
  lower_eq : b.lower = 0
  upper_cases : h.evaluations = 0 ∨ ∃ u, b.upper = .finite u
  bisections_eq : b.bisections = h.evaluations
  expansions_eq : b.expansions = 0
  left_eq : h.left = limits.halvings - h.evaluations

namespace Bracket.IsHalving

variable {b : Bracket ℝ n} {h : Halving ℝ n}

theorem start (step : ℝ) :
    (Bracket.start step : Bracket ℝ n).IsHalving limits ⟨limits.halvings, 0, step, none⟩ :=
  ⟨rfl, rfl, rfl, rfl, .inl rfl, rfl, rfl, rfl⟩

/-- The middle of the bracket is half the step that was too long. -/
theorem after (hb : b.IsHalving limits h) (trial : Option (Trial ℝ n)) :
    (b.after trial true).IsHalving limits (h.after trial) where
  step_eq := by
    show (0.5 : ℝ) * (b.lower + b.step) = h.step * 0.5
    rw [hb.lower_eq, hb.step_eq, zero_add, mul_comm]
  evaluations_eq := (b.evaluations_after trial true).trans (congrArg (· + 1) hb.evaluations_eq)
  best_eq := by
    rw [best_after]
    cases trial with
    | none => exact hb.best_eq
    | some t => exact congrArg (Trial.keepLower · t) hb.best_eq
  lower_eq := (b.lower_after trial true).trans hb.lower_eq
  upper_cases := .inr ⟨b.step, b.upper_after trial true⟩
  bisections_eq := congrArg (· + 1) hb.bisections_eq
  expansions_eq := hb.expansions_eq
  left_eq := by
    show h.left - 1 = limits.halvings - (h.evaluations + 1)
    rw [hb.left_eq, Nat.sub_sub]

/-- The two searches may go on just as long. -/
theorem mayContinue_iff (hb : b.IsHalving limits h) : b.MayContinue limits ↔ h.left ≠ 0 := by
  rw [MayContinue, hb.evaluations_eq, hb.bisections_eq, hb.expansions_eq, hb.left_eq, BracketLimits.halvings]
  cases limits.evaluations with
  | none =>
    simp only [BelowCap, true_and]
    omega
  | some cap =>
    simp only [BelowCap]
    omega

end Bracket.IsHalving

theorem SearchTask.forBacktracking_of_not (hunit : o.unitDirection = false) : task.forBacktracking o = task := by
  rw [forBacktracking, hunit]
  rfl

theorem SearchTask.backtrackingLimit_eq_halvings (hunit : o.unitDirection = false) :
    task.backtrackingLimit o = (task.bracketLimits o).halvings := by
  rw [backtrackingLimit, forBacktracking_of_not hunit, halvingSteps_real]
  rfl

variable {a a' : Halving ℝ n × σ} {b : Bracket ℝ n × σ}

/-- A round of backtracking that goes on has found the step too long. -/
theorem exists_bracketRound_eq_inl (hab : b.1.IsHalving limits a.1 ∧ b.2 = a.2)
    (h : halvingRound ask task o exhausted a = .inl a') :
    ∃ b', bracketRound ask task o limits b = .inl b' ∧ b'.1.IsHalving limits a'.1 ∧ b'.2 = a'.2 := by
  obtain ⟨hbracket, hstate⟩ := hab
  rw [halvingRound] at h
  split_ifs at h with hleft
  rw [bracketRound, if_pos (hbracket.mayContinue_iff.2 hleft), hbracket.step_eq, hstate]
  rcases hask : ask (task.pointAt a.1.step) a.2 with ⟨observation | _ | _, s⟩ <;> rw [hask] at h
  · dsimp only at h ⊢
    split_ifs at h with haccept
    cases h
    have hlong : task.verdict o (.ofObservation task a.1.step observation) = .tooLong := by
      rw [SearchTask.verdict_eq_tooLong_iff]
      refine .inr (not_le.1 fun hle ↦ haccept ⟨Trial.isUsable_real _, hle⟩)
    rw [hlong]
    exact ⟨_, rfl, hbracket.after _, rfl⟩
  · cases h
    exact ⟨_, rfl, hbracket.after _, rfl⟩
  · cases h

/-- What the bracketing search calls a failure of backtracking. -/
def SearchFailure.Corresponds {R : Type} : SearchFailure R → SearchFailure R → Prop
  | armijoNotSatisfied, wolfeNotSatisfied _ _ => True
  | nonDescent, nonDescent => True
  | budgetExhausted, budgetExhausted => True
  | _, _ => False

/-- What the bracketing search makes of a failure of backtracking. -/
structure SearchError.Corresponds {R : Type} [Scalar R] (e e' : SearchError R n) : Prop where
  reason : e.reason.Corresponds e'.reason
  evaluations_eq : e'.evaluations = e.evaluations
  kept_eq : e'.kept = e.kept

/-- Where backtracking may not ask any more, the bracketing search may not either. -/
theorem bracketRound_of_left_eq_zero (hab : b.1.IsHalving limits a.1 ∧ b.2 = a.2) (hleft : a.1.left = 0) :
    bracketRound ask task o limits b = .inr (.error (b.1.failure task), a.2) := by
  rw [bracketRound, if_neg fun hcontinue ↦ hab.1.mayContinue_iff.1 hcontinue hleft, hab.2]

/-- Where backtracking gives up, so does the bracketing search. -/
theorem exists_bracketRound_eq_error (hab : b.1.IsHalving limits a.1 ∧ b.2 = a.2)
    (hlimits : task.slope < 0 → limits.halvings ≠ 0) {e : SearchError ℝ n} {s : σ}
    (h : halvingRound ask task o (if 0 ≤ task.slope then .nonDescent else .armijoNotSatisfied) a
      = .inr (.error e, s)) :
    ∃ e', bracketRound ask task o limits b = .inr (.error e', s) ∧ e.Corresponds e' := by
  obtain ⟨hbracket, hstate⟩ := hab
  rw [halvingRound] at h
  split_ifs at h with hleft hslope
  · cases h
    have hfailure : (b.1.failure task).reason = .nonDescent := if_pos hslope
    refine ⟨_, bracketRound_of_left_eq_zero ⟨hbracket, hstate⟩ hleft,
      ⟨?_, hbracket.evaluations_eq, hbracket.best_eq⟩⟩
    rw [hfailure]
    trivial
  · cases h
    -- Something was tried, so the bracket has an upper end.
    obtain ⟨u, hu⟩ : ∃ u, b.1.upper = .finite u := by
      refine hbracket.upper_cases.resolve_left fun hzero ↦ hlimits (not_le.1 hslope) ?_
      rw [← hleft, hbracket.left_eq, hzero, Nat.sub_zero]
    have hfailure : (b.1.failure task).reason = .wolfeNotSatisfied b.1.lower u := by
      rw [Bracket.failure, hu]
      exact if_neg hslope
    refine ⟨_, bracketRound_of_left_eq_zero ⟨hbracket, hstate⟩ hleft,
      ⟨?_, hbracket.evaluations_eq, hbracket.best_eq⟩⟩
    rw [hfailure]
    trivial
  · rcases hask : ask (task.pointAt a.1.step) a.2 with ⟨observation | _ | _, s'⟩ <;> rw [hask] at h
    · dsimp only at h
      split_ifs at h
      cases h
    · cases h
    · cases h
      rw [bracketRound, if_pos (hbracket.mayContinue_iff.2 hleft), hbracket.step_eq, hstate, hask]
      exact ⟨_, rfl, ⟨trivial, hbracket.evaluations_eq, hbracket.best_eq⟩⟩

/-- Where backtracking accepts, the bracketing search does so too if the slope has risen, and otherwise it
goes on. -/
theorem bracketRound_of_accepted (hab : b.1.IsHalving limits a.1 ∧ b.2 = a.2) {out : SearchOutcome ℝ n}
    {s : σ} (h : halvingRound ask task o exhausted a = .inr (.ok out, s)) :
    (o.curvature * task.slope < dot out.trial.iterate.penaltyGrad task.direction →
      bracketRound ask task o limits b = .inr (.ok out, s)) ∧
    (bracketRound ask task o limits b = .inr (.ok out, s) ∨
      ∃ b', bracketRound ask task o limits b = .inl (b', s) ∧ b'.evaluations = out.evaluations) := by
  obtain ⟨hbracket, hstate⟩ := hab
  obtain ⟨observation, hask, rfl, -, hdecreases⟩ := halvingRound_eq_ok h
  have hleft : a.1.left ≠ 0 := fun hzero ↦ by
    rw [halvingRound, if_pos hzero] at h
    cases h
  rw [bracketRound, if_pos (hbracket.mayContinue_iff.2 hleft), hbracket.step_eq, hstate, hask,
    hbracket.evaluations_eq]
  dsimp only
  constructor
  · intro hrisen
    rw [SearchTask.verdict_eq_acceptable_iff.2 ⟨hdecreases, hrisen⟩]
  · rw [← hbracket.evaluations_eq]
    cases task.verdict o (.ofObservation task a.1.step observation) with
    | acceptable => exact .inl rfl
    | tooLong => exact .inr ⟨_, rfl, b.1.evaluations_after _ _⟩
    | tooShort => exact .inr ⟨_, rfl, b.1.evaluations_after _ _⟩

/-- The bracketing search comes along to the last round of backtracking. -/
theorem exists_last_round (hunit : o.unitDirection = false) (ask : Oracle σ ℝ n) (task : SearchTask ℝ n)
    (s : σ) : ∃ (a : Halving ℝ n × σ) (b : Bracket ℝ n × σ),
      (b.1.IsHalving (task.bracketLimits o) a.1 ∧ b.2 = a.2) ∧
      halvingRound ask task o (if 0 ≤ task.slope then .nonDescent else .armijoNotSatisfied) a
        = .inr (backtracking ask task o s) ∧
      Ends (bracketRound ask task o (task.bracketLimits o)) b (weakWolfe ask task o s) := by
  have hends := ends_halveFrom ask (task.forBacktracking o) o
    (if 0 ≤ task.slope then .nonDescent else .armijoNotSatisfied)
    ⟨task.backtrackingLimit o, 0, o.initialStep, none⟩ s
  rw [SearchTask.backtrackingLimit_eq_halvings hunit] at hends
  have hresult : backtracking ask task o s = halveFrom ask (task.forBacktracking o) o
      (if 0 ≤ task.slope then .nonDescent else .armijoNotSatisfied) (task.bracketLimits o).halvings 0
      o.initialStep none s := by
    rw [backtracking, SearchTask.backtrackingLimit_eq_halvings hunit]
  rw [← hresult, SearchTask.forBacktracking_of_not hunit] at hends
  exact hends.follow (fun _ _ _ hab hround ↦ exists_bracketRound_eq_inl hab hround)
    (ends_searchBracket (.start o.initialStep) s) ⟨.start _, rfl⟩

theorem BracketLimits.halvings_ne_zero (hlimit : o.limit ≠ some 0) (hslope : task.slope < 0) :
    (task.bracketLimits o).halvings ≠ 0 := by
  have hcap : (task.bracketLimits o).evaluations = o.limit := if_neg hslope.not_ge
  rw [halvings, hcap]
  cases hmost : o.limit with
  | none => exact Nat.succ_ne_zero _
  | some cap =>
    rw [hmost] at hlimit
    have hpos : cap ≠ 0 := fun hzero ↦ hlimit (congrArg some hzero)
    dsimp only
    omega

/-- Where backtracking fails, so does the bracketing search. -/
theorem weakWolfe_of_backtracking_eq_error (hunit : o.unitDirection = false) (hlimit : o.limit ≠ some 0)
    {s s' : σ} {e : SearchError ℝ n} (h : backtracking ask task o s = (.error e, s')) :
    ∃ e', weakWolfe ask task o s = (.error e', s') ∧ e.Corresponds e' := by
  obtain ⟨a, b, hab, hlast, hends⟩ := exists_last_round hunit ask task s
  rw [h] at hlast
  obtain ⟨e', hround, hcorresponds⟩ :=
    exists_bracketRound_eq_error hab (BracketLimits.halvings_ne_zero hlimit) hlast
  exact ⟨e', hends.result hround, hcorresponds⟩

/-- Where backtracking accepts a step, the bracketing search has asked as much, and it accepts the step too
if the slope has risen. -/
theorem weakWolfe_of_backtracking_eq_ok (hunit : o.unitDirection = false) {s s' : σ}
    {out : SearchOutcome ℝ n} (h : backtracking ask task o s = (.ok out, s')) :
    (o.curvature * task.slope < dot out.trial.iterate.penaltyGrad task.direction →
      weakWolfe ask task o s = (.ok out, s')) ∧
    (weakWolfe ask task o s = (.ok out, s') ∨ ∃ b : Bracket ℝ n, b.evaluations = out.evaluations ∧
      Ends (bracketRound ask task o (task.bracketLimits o)) (b, s') (weakWolfe ask task o s)) := by
  obtain ⟨a, b, hab, hlast, hends⟩ := exists_last_round hunit ask task s
  rw [h] at hlast
  obtain ⟨hrisen, hround | ⟨b', hround, hevaluations⟩⟩ := bracketRound_of_accepted hab hlast
  · exact ⟨fun _ ↦ hends.result hround, .inl (hends.result hround)⟩
  · exact ⟨fun h ↦ hends.result (hrisen h), .inr ⟨b', hevaluations, hends.tail hround⟩⟩

theorem SearchOptions.halving_real (o : SearchOptions ℝ) (k : Nat) : o.halving k = o.initialStep / 2 ^ k := by
  induction k with
  | zero => simp [halving]
  | succ k ih =>
    rw [halving, Function.iterate_succ_apply']
    show o.halving k * 0.5 = _
    rw [ih, pow_succ]
    norm_num
    ring

/-! ## Whole searches -/

/-- Where backtracking fails, the bracketing search asks nothing else. -/
theorem lookUpsOf_weakWolfe_of_error (hunit : o.unitDirection = false) (hlimit : o.limit ≠ some 0) {s : σ}
    {e : SearchError ℝ n} (h : (backtracking ask task o s).1 = .error e) :
    lookUpsOf weakWolfe ask task o s = lookUpsOf backtracking ask task o s := by
  have hrecorded := backtracking_recorded ask task o s
  rw [h] at hrecorded
  obtain ⟨e', herror, -⟩ := weakWolfe_of_backtracking_eq_error hunit hlimit hrecorded
  exact congrArg (·.2.2) ((weakWolfe_recorded ask task o s).symm.trans herror)

/-- Where it succeeds, the bracketing search asks the same before anything else. -/
theorem lookUpsOf_prefix_of_ok (hunit : o.unitDirection = false) {s : σ} {out : SearchOutcome ℝ n}
    (h : (backtracking ask task o s).1 = .ok out) :
    lookUpsOf backtracking ask task o s <+: lookUpsOf weakWolfe ask task o s := by
  have hrecorded := backtracking_recorded ask task o s
  have hbracketing := weakWolfe_recorded ask task o s
  rw [h] at hrecorded
  rcases (weakWolfe_of_backtracking_eq_ok hunit hrecorded).2 with haccepted | ⟨b, -, hends⟩
  · have hlogs : lookUpsOf weakWolfe ask task o s = lookUpsOf backtracking ask task o s :=
      congrArg (·.2.2) (hbracketing.symm.trans haccepted)
    rw [hlogs]
  · rw [hbracketing] at hends
    exact prefix_of_ends hends

/-- **The two searches agree up to the first sufficient decrease.**  Backtracking asks at the initial step
and its halvings, in this order.  No answer but the last decreases the penalty sufficiently, and the last one
does just where backtracking succeeds; the bracketing search asks at the same points before it asks at others.

If backtracking fails, the bracketing search has asked nothing else and fails in the same way, after as many
evaluations and with the same trial kept.  So if the bracketing search succeeds, backtracking has succeeded
after no more evaluations; and if the slope has risen at the step that backtracking accepts, the two come to
the same result. -/
theorem searches_agree_until_decrease {options : Options ℝ} (hoptions : options.IsValid)
    (hunit : options.search.unitDirection = false) (ask : Oracle σ ℝ n) (task : SearchTask ℝ n) (s : σ) :
    lookUpsOf backtracking ask task options.search s <+: lookUpsOf weakWolfe ask task options.search s ∧
    (∀ k x answer, (lookUpsOf backtracking ask task options.search s)[k]? = some (x, answer) →
      x = task.pointAt (options.search.initialStep / 2 ^ k) ∧
        (answer.Decreases task options.search (options.search.initialStep / 2 ^ k) ↔
          k + 1 = (lookUpsOf backtracking ask task options.search s).length ∧
            ∃ out, (backtracking ask task options.search s).1 = .ok out)) ∧
    (∀ e s', backtracking ask task options.search s = (.error e, s') →
      lookUpsOf weakWolfe ask task options.search s = lookUpsOf backtracking ask task options.search s ∧
        ∃ e', weakWolfe ask task options.search s = (.error e', s') ∧
          e.reason.Corresponds e'.reason ∧ e'.evaluations = e.evaluations ∧ e'.kept = e.kept) ∧
    (∀ out' s', weakWolfe ask task options.search s = (.ok out', s') →
      ∃ out s'', backtracking ask task options.search s = (.ok out, s'') ∧
        out.evaluations ≤ out'.evaluations) ∧
    ∀ out s', backtracking ask task options.search s = (.ok out, s') →
      options.search.curvature * task.slope < dot out.trial.iterate.penaltyGrad task.direction →
        weakWolfe ask task options.search s = (.ok out, s') := by
  have hlimit := hoptions.searchLimit_ne_zero
  refine ⟨?_, fun k x answer hk ↦ ?_, fun e s' h ↦ ?_, fun out' s' h ↦ ?_, fun out s' h ↦ ?_⟩
  · cases hresult : (backtracking ask task options.search s).1 with
    | error e =>
      rw [lookUpsOf_weakWolfe_of_error hunit hlimit hresult]
    | ok out => exact lookUpsOf_prefix_of_ok hunit hresult
  · have hentry := lookUpsOf_backtracking ask task options.search s hk
    rwa [SearchTask.forBacktracking_of_not hunit, SearchOptions.halving_real] at hentry
  · obtain ⟨e', herror, hcorresponds⟩ := weakWolfe_of_backtracking_eq_error hunit hlimit h
    exact ⟨lookUpsOf_weakWolfe_of_error hunit hlimit (congrArg Prod.fst h), e', herror, hcorresponds.reason,
      hcorresponds.evaluations_eq, hcorresponds.kept_eq⟩
  · rcases hresult : backtracking ask task options.search s with ⟨e | out, s''⟩
    · obtain ⟨e', herror, -⟩ := weakWolfe_of_backtracking_eq_error hunit hlimit hresult
      cases h.symm.trans herror
    · refine ⟨out, s'', rfl, ?_⟩
      rcases (weakWolfe_of_backtracking_eq_ok hunit hresult).2 with haccepted | ⟨b, hevaluations, hends⟩
      · cases h.symm.trans haccepted
        exact le_rfl
      · rw [h] at hends
        exact hevaluations.symm.trans_le (evaluations_le_of_ends hends)
  · exact (weakWolfe_of_backtracking_eq_ok hunit h).1

/-- The origin of the line as an equality, seen from a point; nothing is to be minimised. -/
noncomputable def originAt (x : Vector ℝ 1) : Observation ℝ 1 where
  point := x
  value := 0
  grad := .replicate 1 0
  ineq := []
  eq := [⟨x[0], .replicate 1 1⟩]

@[inherit_doc originAt]
noncomputable def originOracle : Oracle Unit ℝ 1 := fun x ↦ pure (.evaluated (originAt x))

/-- A search that begins on one side of the origin.  A whole step leads across it, and farther away. -/
noncomputable def originTask : SearchTask ℝ 1 where
  start := originAt (.replicate 1 0.4)
  direction := .replicate 1 (-1)
  slope := -1
  mu := 1

/-- The trial of half a step. -/
noncomputable def originTrial : Trial ℝ 1 :=
  .ofObservation originTask (1 * 0.5) (originAt (originTask.pointAt (1 * 0.5)))

theorem pointAt_originTask (t : ℝ) : originTask.pointAt t = .replicate 1 (0.4 - t) := by
  refine ext_get fun i ↦ ?_
  show (along (Vector.replicate 1 (0.4 : ℝ)) (.replicate 1 (-1)) t).get i = _
  rw [get_along, Pi.add_apply, Pi.smul_apply, get_replicate, get_replicate, get_replicate, smul_eq_mul]
  ring

theorem decreases_originTask_iff {o : SearchOptions ℝ} (hdecrease : o.decrease = 1e-4) (t : ℝ) :
    (Trial.ofObservation originTask t (originAt (originTask.pointAt t))).Decreases originTask o
      ↔ |0.4 - t| ≤ 0.4 - 1e-4 * t := by
  have hviolation (x : ℝ) : (originAt (.replicate 1 x)).tvL1 = |x| := by
    rw [Observation.tvL1, violationL1, originAt, Vector.getElem_replicate]
    show (0 : ℝ) + (0 + |x|) = |x|
    rw [zero_add, zero_add]
  have hstart : |(0.4 : ℝ)| = 0.4 := abs_of_pos (by norm_num)
  rw [pointAt_originTask]
  show 1 * 0 + (originAt (.replicate 1 (0.4 - t))).tvL1
    ≤ 1 * 0 + (originAt (.replicate 1 0.4)).tvL1 + o.decrease * t * -1 ↔ _
  rw [hviolation, hviolation, hstart, hdecrease]
  constructor <;> intro h <;> linarith

/-- Backtracking does not accept the first step, but half of it. -/
theorem backtracking_originTask {o : SearchOptions ℝ} (hstep : o.initialStep = 1)
    (hdecrease : o.decrease = 1e-4) (hlimit : o.limit = none)
    (htask : originTask.forBacktracking o = originTask) :
    backtracking originOracle originTask o () = (.ok ⟨originTrial, 2⟩, ()) := by
  have hsteps : originTask.backtrackingLimit o = bisectionLimit (norm₂ originTask.direction) + 1 := by
    have hslope : ¬ (0 : ℝ) ≤ -1 := by norm_num
    have hcap : originTask.evaluationCap o = none := (if_neg hslope).trans hlimit
    rw [SearchTask.backtrackingLimit, hcap, htask, halvingSteps_real]
  have hhalvings : bisectionLimit (norm₂ originTask.direction) ≠ 0 :=
    Nat.ne_of_gt (lt_of_lt_of_le (by decide) (le_max_left 30 _))
  let exhausted : SearchFailure ℝ := if 0 ≤ originTask.slope then .nonDescent else .armijoNotSatisfied
  let first : Halving ℝ 1 := ⟨bisectionLimit (norm₂ originTask.direction) + 1, 0, 1, none⟩
  let second : Halving ℝ 1 :=
    first.after (some (.ofObservation originTask 1 (originAt (originTask.pointAt 1))))
  have hfirst : halvingRound originOracle originTask o exhausted (first, ()) = .inl (second, ()) := by
    rw [halvingRound_of_evaluated (Nat.succ_ne_zero _) rfl, if_neg]
    rintro ⟨-, hdecreases⟩
    have habs := (decreases_originTask_iff hdecrease 1).1 hdecreases
    rw [abs_of_neg (by norm_num)] at habs
    norm_num at habs
  have hsecond : halvingRound originOracle originTask o exhausted (second, ())
      = .inr (.ok ⟨originTrial, 2⟩, ()) := by
    rw [halvingRound_of_evaluated (a := (second, ())) hhalvings rfl, if_pos]
    · rfl
    · refine ⟨Trial.isUsable_real _, (decreases_originTask_iff hdecrease (1 * 0.5)).2 ?_⟩
      rw [abs_of_neg (by norm_num)]
      norm_num
  have hends := ends_halveFrom originOracle originTask o exhausted first ()
  rw [backtracking, hsteps, htask, hstep]
  exact (hends.tail hfirst).result hsecond

/-- Both searches try the whole step across the origin and then half of it, which they accept. -/
theorem searches_agree_until_decrease_origin :
    (Options.standard : Options ℝ).IsValid ∧ (Options.standard : Options ℝ).search.unitDirection = false ∧
    ∃ out, backtracking originOracle originTask (Options.standard : Options ℝ).search () = (.ok out, ()) ∧
      weakWolfe originOracle originTask (Options.standard : Options ℝ).search () = (.ok out, ()) ∧
      out.evaluations = 2 := by
  have hresult : backtracking originOracle originTask (Options.standard : Options ℝ).search ()
      = (.ok ⟨originTrial, 2⟩, ()) :=
    backtracking_originTask rfl rfl rfl (SearchTask.forBacktracking_of_not rfl)
  -- Half a step is across the origin, where the slope has turned.
  have hslope : dot originTrial.iterate.penaltyGrad originTask.direction = 1 := by
    have hviolation : (originAt (originTask.pointAt (1 * 0.5))).violationGrad
        = .replicate 1 0 - .replicate 1 1 := by
      have hbeyond : (originTask.pointAt (1 * 0.5)).get 0 < 0 := by
        rw [pointAt_originTask, get_replicate]
        norm_num
      exact (if_neg hbeyond.not_gt).trans (if_pos hbeyond)
    show dot (scale (.replicate 1 0) 1 + (originAt (originTask.pointAt (1 * 0.5))).violationGrad)
      (.replicate 1 (-1)) = 1
    rw [hviolation, dot_eq, dotProduct, Fin.sum_univ_one, get_add, get_scale, get_sub]
    simp only [Pi.add_apply, Pi.smul_apply, Pi.sub_apply, get_replicate]
    norm_num
  obtain ⟨-, -, -, -, hrisen⟩ :=
    searches_agree_until_decrease Options.isValid_standard rfl originOracle originTask ()
  refine ⟨Options.isValid_standard, rfl, _, hresult, hrisen _ _ hresult ?_, rfl⟩
  rw [hslope]
  show (0.5 : ℝ) * -1 < 1
  norm_num

/-! ## The length of the direction -/

/-- The search along a multiple of the direction. -/
noncomputable def SearchTask.stretched (task : SearchTask ℝ n) (c : ℝ) : SearchTask ℝ n :=
  { task with direction := scale task.direction c, slope := c * task.slope }

namespace SearchTask

variable {c : ℝ} (hc : 0 < c)
include hc

theorem normalized_stretched (hdirection : task.direction ≠ .replicate n 0) :
    (task.stretched c).normalized = task.normalized := by
  have hlength : 0 < norm₂ task.direction := norm₂_pos hdirection
  have hstretched : norm₂ (task.stretched c).direction = c * norm₂ task.direction := norm₂_scale hc.le _
  rw [normalized, normalized, hstretched, if_pos (mul_pos hc hlength), if_pos hlength]
  have hvector : (task.stretched c).direction.map (· / (c * norm₂ task.direction))
      = task.direction.map (· / norm₂ task.direction) := by
    refine ext_get fun i ↦ ?_
    rw [get_map, get_map, stretched, get_scale, Pi.smul_apply, smul_eq_mul, mul_div_mul_left _ _ hc.ne']
  have hslope : (task.stretched c).slope / (c * norm₂ task.direction) = task.slope / norm₂ task.direction :=
    mul_div_mul_left _ _ hc.ne'
  rw [hvector, hslope]
  rfl

theorem slope_stretched_nonneg : 0 ≤ (task.stretched c).slope ↔ 0 ≤ task.slope :=
  mul_nonneg_iff_of_pos_left hc

theorem evaluationCap_stretched : (task.stretched c).evaluationCap o = task.evaluationCap o := by
  rw [evaluationCap, evaluationCap]
  simp only [slope_stretched_nonneg hc]

end SearchTask

/-- **Backtracking along a normalised direction ignores how long the direction was.**  For every multiple of
a direction it asks for the same points and comes to the same result. -/
theorem backtracking_ignores_length (ask : Oracle σ ℝ n) (task : SearchTask ℝ n) (o : SearchOptions ℝ)
    (c : ℝ) (hunit : o.unitDirection = true) (hdirection : task.direction ≠ .replicate n 0) (hc : 0 < c) :
    backtracking ask (task.stretched c) o = backtracking ask task o ∧
      ∀ s, lookUpsOf backtracking ask (task.stretched c) o s = lookUpsOf backtracking ask task o s := by
  have hsame {τ : Type} (ask : Oracle τ ℝ n) :
      backtracking ask (task.stretched c) o = backtracking ask task o := by
    have htask : (task.stretched c).forBacktracking o = task.forBacktracking o := by
      rw [SearchTask.forBacktracking, SearchTask.forBacktracking, if_pos hunit, if_pos hunit,
        SearchTask.normalized_stretched hc hdirection]
    rw [backtracking, backtracking, SearchTask.backtrackingLimit, SearchTask.backtrackingLimit, htask,
      SearchTask.evaluationCap_stretched hc]
    simp only [SearchTask.slope_stretched_nonneg hc]
  refine ⟨hsame ask, fun s ↦ ?_⟩
  rw [lookUpsOf, lookUpsOf, hsame]

/-- The default search, along the normalised direction. -/
noncomputable def unitSearch : SearchOptions ℝ :=
  { (Options.standard : Options ℝ).search with backtracking := true, unitDirection := true }

/-- Along a direction of twice the length the search across the origin accepts the same step. -/
theorem backtracking_ignores_length_origin :
    unitSearch.unitDirection = true ∧ originTask.direction ≠ .replicate 1 0 ∧ (0 : ℝ) < 2 ∧
    (originTask.stretched 2).direction ≠ originTask.direction ∧
    backtracking originOracle (originTask.stretched 2) unitSearch () = (.ok ⟨originTrial, 2⟩, ()) ∧
    lookUpsOf backtracking originOracle (originTask.stretched 2) unitSearch ()
      = lookUpsOf backtracking originOracle originTask unitSearch () := by
  have hcomponent {u v : Vector ℝ 1} (h : u.get 0 ≠ v.get 0) : u ≠ v := fun heq ↦ h (heq ▸ rfl)
  have hone : originTask.direction.get 0 = -1 := get_replicate _ _
  have hdirection : originTask.direction ≠ .replicate 1 0 :=
    hcomponent (by rw [hone, get_replicate]; norm_num)
  have hlonger : (originTask.stretched 2).direction ≠ originTask.direction := by
    refine hcomponent ?_
    rw [SearchTask.stretched, get_scale, Pi.smul_apply, hone]
    norm_num
  have hlength : norm₂ originTask.direction = 1 := by
    rw [norm₂_eq, dotProduct, Fin.sum_univ_one, hone, neg_mul_neg, one_mul, Real.sqrt_one]
  have htask : originTask.forBacktracking unitSearch = originTask := by
    have hvector : originTask.direction.map (· / 1) = originTask.direction :=
      ext_get fun i ↦ by rw [get_map, div_one]
    have hunit : unitSearch.unitDirection = true := rfl
    rw [SearchTask.forBacktracking, if_pos hunit, SearchTask.normalized, hlength, if_pos one_pos, hvector,
      div_one]
  obtain ⟨hsame, hpoints⟩ :=
    backtracking_ignores_length originOracle originTask unitSearch 2 rfl hdirection two_pos
  refine ⟨rfl, hdirection, two_pos, hlonger, ?_, hpoints ()⟩
  rw [hsame]
  exact backtracking_originTask rfl rfl rfl htask

end Exact

end ExactPenalty
