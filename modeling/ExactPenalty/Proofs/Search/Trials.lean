import ExactPenalty.Proofs.FirstLeast
import ExactPenalty.Proofs.Search.Lookups

/-!
# The trials of a search

Every trial of a search is the answer of a look-up on the ray that is searched, weighed with the penalty
parameter of the search.  `Passed ask task s trials s'` says that look-ups lead from `s` to `s'` and that
`trials` are those of their answers that were let through; `explored_lineSearch` says this of both
searches, whatever they come to.  A failed search keeps what `Trial.keepLower` makes of its trials: none
if none is usable, and else the first of the usable ones with the lowest penalty
(`Trial.isFirstLowest_of_foldl`).

`Tried` and `Searched` forget the points and all trials but the best.  No later proof opens a search again
for what it accepts or keeps: that was observed by one of its look-ups (`Tried.observed`,
`Searched.observed_ok`).
-/

set_option autoImplicit false

namespace ExactPenalty

open ExactPenalty.Action

variable {σ R : Type} [Scalar R] {n : Nat}

/-! ## The best trial -/

namespace Trial

variable {best : Option (Trial R n)} {t : Trial R n}

/-- The best trial is the new one, which is usable then, or the one that was the best before. -/
theorem keepLower_eq_some {b : Trial R n} (h : keepLower best t = some b) :
    best = some b ∨ b = t ∧ t.isUsable = true := by
  rw [keepLower.eq_def] at h
  split_ifs at h with husable
  · cases best with
    | none => exact .inr ⟨(Option.some.inj h).symm, husable⟩
    | some b' =>
      dsimp only at h
      split_ifs at h
      · exact .inr ⟨(Option.some.inj h).symm, husable⟩
      · exact .inl h
  · exact .inl h

/-- Of two trials the one with the lower penalty. -/
def IsLower (t than : Trial R n) : Prop := t.iterate.penalty < than.iterate.penalty

instance instDecidableIsLower : DecidableRel (IsLower : Trial R n → Trial R n → Prop) :=
  fun _ _ ↦ inferInstanceAs (Decidable (_ < _))

theorem keepLower_eq_keepLess :
    (keepLower : Option (Trial R n) → _ → _) = keepLess IsLower isUsable := by
  funext best t
  cases best <;> rfl

/-- No trial is kept only if none was usable. -/
theorem foldl_keepLower_eq_none_iff {trials : List (Trial R n)} :
    trials.foldl keepLower none = none ↔ ∀ t ∈ trials, t.isUsable = false := by
  rw [keepLower_eq_keepLess]
  exact foldl_keepLess_eq_none_iff

/-- The trial is the first of the usable ones with the lowest penalty. -/
def IsFirstLowest (t : Trial R n) (trials : List (Trial R n)) : Prop :=
  t.isUsable = true ∧ ∃ before after, trials = before ++ t :: after ∧
    (∀ u ∈ before, u.isUsable = true → t.iterate.penalty < u.iterate.penalty) ∧
    ∀ u ∈ after, u.isUsable = true → ¬ u.iterate.penalty < t.iterate.penalty

theorem IsFirstLowest.mem {t : Trial R n} {trials : List (Trial R n)} (h : t.IsFirstLowest trials) :
    t ∈ trials := by
  obtain ⟨-, before, after, rfl, -⟩ := h
  exact List.mem_append_right _ List.mem_cons_self

end Trial

/-- Finite numbers are ordered, up to the difference between the two zeros. -/
structure Scalar.OrdersFinite (R : Type) [Scalar R] : Prop where
  asymm : ∀ a b : R, Scalar.isFinite a = true → Scalar.isFinite b = true → a < b → ¬ b < a
  lt_or_lt : ∀ a b c : R, Scalar.isFinite a = true → Scalar.isFinite b = true →
    Scalar.isFinite c = true → a < b → a < c ∨ c < b

/-- Numbers that are all ordered are so where they are finite. -/
theorem Scalar.IsOrdered.ordersFinite (h : Scalar.IsOrdered R) : Scalar.OrdersFinite R where
  asymm _ _ _ _ := h.asymm
  lt_or_lt _ _ _ _ _ hc := h.lt_or_lt (h.isNaN_of_isFinite hc)

theorem Scalar.ordersFinite_real : Scalar.OrdersFinite ℝ := Scalar.isOrdered_real.ordersFinite

namespace Trial

theorem isFinite_penalty {t : Trial R n} (h : t.isUsable = true) :
    Scalar.isFinite t.iterate.penalty = true := by
  rw [isUsable, Iterate.isUsable, Bool.and_eq_true] at h
  exact h.1

theorem ordersOn_isLower (horder : Scalar.OrdersFinite R) :
    OrdersOn (IsLower : Trial R n → Trial R n → Prop) {t | t.isUsable = true} where
  asymm _ ha _ hb := horder.asymm _ _ (isFinite_penalty ha) (isFinite_penalty hb)
  lt_or_lt _ ha _ hb _ hc :=
    horder.lt_or_lt _ _ _ (isFinite_penalty ha) (isFinite_penalty hb) (isFinite_penalty hc)

/-- **What a failed search keeps** is the first of its usable trials with the lowest penalty. -/
theorem isFirstLowest_of_foldl (horder : Scalar.OrdersFinite R) {trials : List (Trial R n)}
    {t : Trial R n} (h : trials.foldl keepLower none = some t) : t.IsFirstLowest trials := by
  rw [keepLower_eq_keepLess] at h
  exact isFirstLeast_of_foldl (ordersOn_isLower horder) (fun _ _ husable ↦ husable) h

end Trial

/-! ## Trials -/

/-- The task as the search sees it: backtracking may normalise the direction. -/
def SearchTask.forSearch (task : SearchTask R n) (o : SearchOptions R) : SearchTask R n :=
  if o.backtracking then task.forBacktracking o else task

theorem SearchTask.mu_forSearch {task : SearchTask R n} {o : SearchOptions R} :
    (task.forSearch o).mu = task.mu := by
  rw [forSearch]
  split_ifs
  · exact mu_forBacktracking
  · rfl

/-- Look-ups along a ray lead from one state to another, and the trials are those of their answers that
were let through, in their order. -/
inductive Passed (ask : Oracle σ R n) (task : SearchTask R n) (s : σ) : List (Trial R n) → σ → Prop where
  | none : Passed ask task s [] s
  | refused {trials : List (Trial R n)} {s₁ s₂ : σ} (step : R) : Passed ask task s trials s₁ →
      ask (task.pointAt step) s₁ = (.rejected, s₂) → Passed ask task s trials s₂
  | stopped {trials : List (Trial R n)} {s₁ s₂ : σ} (step : R) : Passed ask task s trials s₁ →
      ask (task.pointAt step) s₁ = (.stopped, s₂) → Passed ask task s trials s₂
  | passed {trials : List (Trial R n)} {s₁ s₂ : σ} {o : Observation R n} (step : R) :
      Passed ask task s trials s₁ → ask (task.pointAt step) s₁ = (.evaluated o, s₂) →
      Passed ask task s (trials ++ [.ofObservation task step o]) s₂

/-- A search has accepted its last trial, or it has given up with what it keeps of all of them. -/
inductive Explored (ask : Oracle σ R n) (task : SearchTask R n) (s : σ) :
    SearchResult R n → σ → Prop where
  | accepted {trials : List (Trial R n)} {s₁ s₂ : σ} {o : Observation R n} (step : R)
      (evaluations : Nat) : Passed ask task s trials s₁ →
      ask (task.pointAt step) s₁ = (.evaluated o, s₂) →
      Explored ask task s (.ok ⟨.ofObservation task step o, evaluations⟩) s₂
  | failed {trials : List (Trial R n)} {e : SearchError R n} {s' : σ} :
      Passed ask task s trials s' → e.kept = trials.foldl Trial.keepLower none →
      Explored ask task s (.error e) s'

/-- Look-ups lead from one state to another, and the trial is the best of their answers for a penalty
parameter. -/
inductive Tried (ask : Oracle σ R n) (μ : R) (s : σ) : Option (Trial R n) → σ → Prop where
  | none : Tried ask μ s none s
  | refused {best : Option (Trial R n)} {s₁ s₂ : σ} {x : Vector R n} : Tried ask μ s best s₁ →
      ask x s₁ = (.rejected, s₂) → Tried ask μ s best s₂
  | stopped {best : Option (Trial R n)} {s₁ s₂ : σ} {x : Vector R n} : Tried ask μ s best s₁ →
      ask x s₁ = (.stopped, s₂) → Tried ask μ s best s₂
  | passed {best : Option (Trial R n)} {s₁ s₂ : σ} {x : Vector R n} {o : Observation R n}
      (step : R) : Tried ask μ s best s₁ → ask x s₁ = (.evaluated o, s₂) →
      Tried ask μ s (Trial.keepLower best ⟨step, o.weighed μ⟩) s₂

/-- A search has accepted the answer of its last look-up, or it has given up with the best trial. -/
inductive Searched (ask : Oracle σ R n) (μ : R) (s : σ) : SearchResult R n → σ → Prop where
  | accepted {best : Option (Trial R n)} {s₁ s₂ : σ} {x : Vector R n} {o : Observation R n}
      (step : R) (evaluations : Nat) : Tried ask μ s best s₁ → ask x s₁ = (.evaluated o, s₂) →
      Searched ask μ s (.ok ⟨⟨step, o.weighed μ⟩, evaluations⟩) s₂
  | failed {e : SearchError R n} {s' : σ} : Tried ask μ s e.kept s' → Searched ask μ s (.error e) s'

section Searches

variable {ask : Oracle σ R n} {task : SearchTask R n} {o : SearchOptions R} {limits : BracketLimits}
    {exhausted : SearchFailure R} {s s₀ s' : σ}

theorem Passed.tried {trials : List (Trial R n)} (h : Passed ask task s trials s') :
    Tried ask task.mu s (trials.foldl Trial.keepLower Option.none) s' := by
  induction h with
  | none => exact .none
  | refused _ _ hask ih => exact ih.refused hask
  | stopped _ _ hask ih => exact ih.stopped hask
  | passed step _ hask ih =>
    rw [List.foldl_concat]
    exact ih.passed step hask

theorem Explored.searched {r : SearchResult R n} (h : Explored ask task s r s') :
    Searched ask task.mu s r s' := by
  cases h with
  | accepted step evaluations hpassed hask => exact .accepted step evaluations hpassed.tried hask
  | failed hpassed hkept =>
    refine .failed ?_
    rw [hkept]
    exact hpassed.tried

/-- The trials of the rounds so far, and the best of them. -/
def Tracks (ask : Oracle σ R n) (task : SearchTask R n) (s₀ : σ) (best : Option (Trial R n)) (s : σ) :
    Prop :=
  ∃ trials, Passed ask task s₀ trials s ∧ best = trials.foldl Trial.keepLower none

namespace Tracks

variable {best : Option (Trial R n)} {step : R}

theorem refused (h : Tracks ask task s₀ best s) (hask : ask (task.pointAt step) s = (.rejected, s')) :
    Tracks ask task s₀ best s' := by
  obtain ⟨trials, hpassed, hbest⟩ := h
  exact ⟨trials, hpassed.refused step hask, hbest⟩

theorem passed {observation : Observation R n} (h : Tracks ask task s₀ best s)
    (hask : ask (task.pointAt step) s = (.evaluated observation, s')) :
    Tracks ask task s₀ (Trial.keepLower best (.ofObservation task step observation)) s' := by
  obtain ⟨trials, hpassed, rfl⟩ := h
  exact ⟨_, hpassed.passed step hask, (List.foldl_concat ..).symm⟩

theorem failed {e : SearchError R n} (h : Tracks ask task s₀ e.kept s) :
    Explored ask task s₀ (.error e) s := by
  obtain ⟨trials, hpassed, hkept⟩ := h
  exact .failed hpassed hkept

theorem stopped {e : SearchError R n} (h : Tracks ask task s₀ e.kept s)
    (hask : ask (task.pointAt step) s = (.stopped, s')) : Explored ask task s₀ (.error e) s' := by
  obtain ⟨trials, hpassed, hkept⟩ := h
  exact .failed (hpassed.stopped step hask) hkept

theorem accepted {observation : Observation R n} (evaluations : Nat) (h : Tracks ask task s₀ best s)
    (hask : ask (task.pointAt step) s = (.evaluated observation, s')) :
    Explored ask task s₀ (.ok ⟨.ofObservation task step observation, evaluations⟩) s' := by
  obtain ⟨trials, hpassed, -⟩ := h
  exact .accepted step evaluations hpassed hask

end Tracks

theorem tracks_bracketRound {a b : Bracket R n × σ} (h : Tracks ask task s₀ a.1.best a.2)
    (hab : bracketRound ask task o limits a = .inl b) : Tracks ask task s₀ b.1.best b.2 := by
  rw [bracketRound] at hab
  split_ifs at hab
  rcases hask : ask (task.pointAt a.1.step) a.2 with ⟨observation | _ | _, s⟩ <;> rw [hask] at hab
  · cases hv : task.verdict o (Trial.ofObservation task a.1.step observation) <;>
      simp only [hv] at hab <;> cases hab <;> rw [Bracket.best_after] <;> exact h.passed hask
  · cases hab
    rw [Bracket.best_after]
    exact h.refused hask
  · cases hab

theorem explored_bracketRound {a : Bracket R n × σ} {r : SearchResult R n}
    (h : Tracks ask task s₀ a.1.best a.2)
    (har : bracketRound ask task o limits a = .inr (r, s)) : Explored ask task s₀ r s := by
  cases r with
  | ok out =>
    obtain ⟨observation, hask, rfl, -⟩ := bracketRound_eq_ok har
    exact h.accepted _ hask
  | error e =>
    rw [bracketRound] at har
    split_ifs at har
    · rcases hask : ask (task.pointAt a.1.step) a.2 with ⟨observation | _ | _, s₁⟩ <;>
        rw [hask] at har
      · cases hv : task.verdict o (Trial.ofObservation task a.1.step observation) <;>
          simp only [hv] at har <;> cases har
      · cases har
      · cases har
        exact Tracks.stopped h hask
    · cases har
      exact Tracks.failed h

theorem tracks_halvingRound {a b : Halving R n × σ} (h : Tracks ask task s₀ a.1.best a.2)
    (hab : halvingRound ask task o exhausted a = .inl b) : Tracks ask task s₀ b.1.best b.2 := by
  rw [halvingRound] at hab
  split_ifs at hab
  rcases hask : ask (task.pointAt a.1.step) a.2 with ⟨observation | _ | _, s⟩ <;> rw [hask] at hab
  · dsimp only at hab
    split_ifs at hab
    cases hab
    exact h.passed hask
  · cases hab
    exact h.refused hask
  · cases hab

theorem explored_halvingRound {a : Halving R n × σ} {r : SearchResult R n}
    (h : Tracks ask task s₀ a.1.best a.2)
    (har : halvingRound ask task o exhausted a = .inr (r, s)) : Explored ask task s₀ r s := by
  cases r with
  | ok out =>
    obtain ⟨observation, hask, rfl, -⟩ := halvingRound_eq_ok har
    exact h.accepted _ hask
  | error e =>
    rw [halvingRound] at har
    split_ifs at har
    · cases har
      exact Tracks.failed h
    · rcases hask : ask (task.pointAt a.1.step) a.2 with ⟨observation | _ | _, s₁⟩ <;>
        rw [hask] at har
      · dsimp only at har
        split_ifs at har
        cases har
      · cases har
      · cases har
        exact Tracks.stopped h hask

/-- **The trials of a search are answers of its look-ups on the ray that is searched**, and what it keeps
is kept of all of them. -/
theorem explored_lineSearch (ask : Oracle σ R n) (task : SearchTask R n) (o : SearchOptions R)
    (s : σ) :
    Explored ask (task.forSearch o) s (lineSearch ask task o s).1 (lineSearch ask task o s).2 := by
  have hstart (task : SearchTask R n) : Tracks ask task s none s := ⟨[], .none, rfl⟩
  rw [lineSearch, SearchTask.forSearch]
  split_ifs
  · have hends := ends_halveFrom ask (task.forBacktracking o) o
      (if 0 ≤ task.slope then .nonDescent else .armijoNotSatisfied)
      ⟨task.backtrackingLimit o, 0, o.initialStep, none⟩ s
    obtain ⟨a, ha, hlast⟩ := hends.exists_last
      (P := fun a : Halving R n × σ ↦ Tracks ask (task.forBacktracking o) s a.1.best a.2)
      (fun a b hab h ↦ tracks_halvingRound h hab) (hstart _)
    exact explored_halvingRound ha hlast
  · have hends : Ends (bracketRound ask task o (task.bracketLimits o)) (.start o.initialStep, s)
        (weakWolfe ask task o s) := ends_searchBracket _ _
    obtain ⟨a, ha, hlast⟩ := hends.exists_last
      (P := fun a : Bracket R n × σ ↦ Tracks ask task s a.1.best a.2)
      (fun a b hab h ↦ tracks_bracketRound h hab) (hstart _)
    exact explored_bracketRound ha hlast

/-- **The trials of a search are answers of its look-ups**, weighed with its penalty parameter. -/
theorem searched_lineSearch (ask : Oracle σ R n) (task : SearchTask R n) (o : SearchOptions R)
    (s : σ) :
    Searched ask task.mu s (lineSearch ask task o s).1 (lineSearch ask task o s).2 := by
  have hsearched := (explored_lineSearch ask task o s).searched
  rwa [SearchTask.mu_forSearch] at hsearched

/-- Backtracking tries every step it is given, so it never finds that none was too long. -/
theorem not_backtracking_of_notBracketed {e : SearchError R n} {step : R} {s' : σ}
    (h : lineSearch ask task o s = (.error e, s')) (hreason : e.reason = .notBracketed step) :
    o.backtracking = false := by
  by_contra hback
  rw [Bool.not_eq_false] at hback
  have hends := ends_halveFrom ask (task.forBacktracking o) o
    (if 0 ≤ task.slope then .nonDescent else .armijoNotSatisfied)
    ⟨task.backtrackingLimit o, 0, o.initialStep, none⟩ s
  rw [lineSearch, if_pos hback, backtracking] at h
  rw [h] at hends
  obtain ⟨a, -, hlast⟩ := hends.exists_last (P := fun _ ↦ True) (fun _ _ _ _ ↦ trivial) trivial
  rcases halvingRound_eq_error hlast with ⟨hstopped, -⟩ | hexhausted
  · cases hreason.symm.trans hstopped
  · rw [hexhausted] at hreason
    split_ifs at hreason

end Searches

/-! ## What was observed -/

section Observed

variable {ask : Oracle σ R n} {μ : R} {s s' : σ} {best : Option (Trial R n)}

/-- What a look-up establishes of the observation it lets through, and what no look-up destroys, holds
of the best trial. -/
theorem Tried.observed {P : σ → Observation R n → Prop}
    (hasked : ∀ {x s o s'}, ask x s = (.evaluated o, s') → P s' o)
    (hkept : ∀ {o s} (x), P s o → P (ask x s).2 o) (h : Tried ask μ s best s') :
    ∀ t, best = some t → t.iterate.mu = μ ∧ P s' t.iterate.toObservation := by
  have hstep {o : Observation R n} {x : Vector R n} {s₁ s₂ : σ} {answer : Lookup R n}
      (hask : ask x s₁ = (answer, s₂)) (ho : P s₁ o) : P s₂ o := by
    have hnext := hkept x ho
    rwa [hask] at hnext
  induction h with
  | none => exact fun t ht ↦ nomatch ht
  | refused _ hask ih => exact fun t ht ↦ ⟨(ih t ht).1, hstep hask (ih t ht).2⟩
  | stopped _ hask ih => exact fun t ht ↦ ⟨(ih t ht).1, hstep hask (ih t ht).2⟩
  | passed step _ hask ih =>
    intro t ht
    rcases Trial.keepLower_eq_some ht with hbefore | ⟨rfl, -⟩
    · exact ⟨(ih t hbefore).1, hstep hask (ih t hbefore).2⟩
    · exact ⟨rfl, hasked hask⟩

/-- The trial that a search accepts. -/
theorem Searched.observed_ok {P : σ → Observation R n → Prop}
    (hasked : ∀ {x s o s'}, ask x s = (.evaluated o, s') → P s' o) {out : SearchOutcome R n}
    (h : Searched ask μ s (.ok out) s') :
    out.trial.iterate.mu = μ ∧ P s' out.trial.iterate.toObservation := by
  cases h with
  | accepted _ _ _ hask => exact ⟨rfl, hasked hask⟩

end Observed

end ExactPenalty
