import ExactPenalty.Proofs.InStep
import ExactPenalty.Proofs.Search.Acceptance
import ExactPenalty.Proofs.Search.Trials

/-!
# Refusals

A look-up that is refused and an answer that cannot be used with the penalty parameter of the search come
to a search in different ways, but neither gives it anything: the step was too long.  So a search cannot
tell them apart, and two oracles that differ in such answers only lead it along the same points to the same
result.

## What is here

* `Lookup.AlikeAt` — two answers are the same, or neither gives a search anything.
* `together_lineSearch` — searches that get such answers stay together, round by round, unless one of them
  meets the end of a budget that the other does not have.
* `Oracle.recorded`, `lookUpsOf` — the look-ups of a search, with their answers, in their order.
* `searches_take_refusals_alike` — the statement about whole searches, which never return anything that
  cannot be used.
-/

set_option autoImplicit false

namespace ExactPenalty

open Linear ExactPenalty.Action

variable {σ τ R : Type} [Scalar R] {n : Nat}

/-! ## Answers that give nothing -/

namespace Lookup

/-- The look-up was refused, or its answer cannot be used with the penalty parameter. -/
def IsUseless (μ : R) : Lookup R n → Prop
  | evaluated o => (o.weighed μ).isUsable = false
  | rejected => True
  | stopped => False

/-- Two answers are the same, or neither gives a search anything. -/
def AlikeAt (μ : R) (answer answer' : Lookup R n) : Prop :=
  answer = answer' ∨ answer.IsUseless μ ∧ answer'.IsUseless μ

end Lookup

/-- From related states two oracles give answers that a search cannot tell apart, and lead to related
states. -/
def Oracle.AlikeAt (μ : R) (rel : σ → τ → Prop) (ask : Oracle σ R n) (ask' : Oracle τ R n) : Prop :=
  ∀ x s t, rel s t → (ask x s).1.AlikeAt μ (ask' x t).1 ∧ rel (ask x s).2 (ask' x t).2

theorem Trial.keepLower_of_not_isUsable {best : Option (Trial R n)} {t : Trial R n}
    (h : t.isUsable = false) : keepLower best t = best := by
  rw [keepLower.eq_def, h]
  rfl

section Rounds

variable {ask : Oracle σ R n} {ask' : Oracle τ R n} {task : SearchTask R n} {o : SearchOptions R}
    {limits : BracketLimits} {exhausted : SearchFailure R}

/-- What gives nothing makes the step the upper end of the bracket, and leaves the best trial alone. -/
theorem bracketRound_of_isUseless {a : Bracket R n × σ} {answer : Lookup R n} {s : σ}
    (hcontinue : a.1.MayContinue limits) (hask : ask (task.pointAt a.1.step) a.2 = (answer, s))
    (h : answer.IsUseless task.mu) :
    bracketRound ask task o limits a = .inl (a.1.after none true, s) := by
  rw [bracketRound, if_pos hcontinue, hask]
  cases answer with
  | evaluated observation =>
    have hunusable : (Trial.ofObservation task a.1.step observation).isUsable = false := h
    have hverdict : task.verdict o (.ofObservation task a.1.step observation) = .tooLong :=
      SearchTask.verdict_eq_tooLong_iff.2 (.inl hunusable)
    have hcounted : a.1.counted (some (.ofObservation task a.1.step observation)) = a.1.counted none := by
      rw [Bracket.counted, Bracket.counted, Trial.keepLower_of_not_isUsable hunusable]
    dsimp only
    rw [hverdict]
    dsimp only
    rw [Bracket.after, Bracket.after, hcounted]
  | rejected => rfl
  | stopped => exact h.elim

/-- What gives nothing halves the step, and leaves the best trial alone. -/
theorem halvingRound_of_isUseless {a : Halving R n × σ} {answer : Lookup R n} {s : σ}
    (hleft : a.1.left ≠ 0) (hask : ask (task.pointAt a.1.step) a.2 = (answer, s))
    (h : answer.IsUseless task.mu) :
    halvingRound ask task o exhausted a = .inl (a.1.after none, s) := by
  rw [halvingRound, if_neg hleft, hask]
  cases answer with
  | evaluated observation =>
    have hunusable : (Trial.ofObservation task a.1.step observation).isUsable = false := h
    have hafter : a.1.after (some (.ofObservation task a.1.step observation)) = a.1.after none := by
      rw [Halving.after, Halving.after, Trial.keepLower_of_not_isUsable hunusable]
    dsimp only
    rw [hunusable, if_neg fun haccept ↦ Bool.false_ne_true haccept.1, hafter]
  | rejected => rfl
  | stopped => exact h.elim

/-! ## Searches together -/

/-- The search has met the end of the budget. -/
def SearchResult.IsStopped (r : SearchResult R n) : Prop :=
  ∃ e, r = .error e ∧ e.reason = .budgetExhausted

-- `post` is what is to be shown of the two results, whatever it is
variable {rel : σ → τ → Prop} {post : SearchResult R n × σ → SearchResult R n × τ → Prop}
    (hask : ∀ x s t, rel s t →
      (∃ s', ask x s = (.stopped, s') ∧
        ∀ (result : SearchResult R n) r', result.IsStopped → post (result, s') r') ∨
      (∃ t', ask' x t = (.stopped, t') ∧
        ∀ r (result : SearchResult R n), result.IsStopped → post r (result, t')) ∨
      (Lookup.AlikeAt task.mu (ask x s).1 (ask' x t).1 ∧ rel (ask x s).2 (ask' x t).2))
    (hpost : ∀ result s t, rel s t → post (result, s) (result, t))
include hask hpost

theorem together_bracketRound (a : Bracket R n × σ) (b : Bracket R n × τ)
    (h : a.1 = b.1 ∧ rel a.2 b.2) :
    Together (fun a b ↦ a.1 = b.1 ∧ rel a.2 b.2) post (bracketRound ask task o limits a)
      (bracketRound ask' task o limits b) := by
  obtain ⟨c, s⟩ := a
  obtain ⟨c', t⟩ := b
  obtain ⟨rfl, hrel⟩ := h
  by_cases hcontinue : c.MayContinue limits
  · rcases hask (task.pointAt c.step) s t hrel with
      ⟨s', hs, hstopped⟩ | ⟨t', ht, hstopped⟩ | ⟨halike, hrel'⟩
    · rw [bracketRound, if_pos hcontinue, hs]
      exact .of_left (fun r' ↦ hstopped _ r' ⟨_, rfl, rfl⟩) _
    · rw [bracketRound.eq_def ask', if_pos hcontinue, ht]
      exact .of_right (fun r ↦ hstopped r _ ⟨_, rfl, rfl⟩) _
    rcases hs : ask (task.pointAt c.step) s with ⟨answer, s'⟩
    rcases ht : ask' (task.pointAt c.step) t with ⟨answer', t'⟩
    rw [hs, ht] at halike hrel'
    obtain rfl | ⟨huseless, huseless'⟩ := halike
    · rw [bracketRound, bracketRound, if_pos hcontinue, if_pos hcontinue, hs, ht]
      cases answer with
      | stopped => exact .done (hpost _ _ _ hrel')
      | rejected => exact .next ⟨rfl, hrel'⟩
      | evaluated observation =>
        dsimp only
        cases task.verdict o (Trial.ofObservation task c.step observation) with
        | acceptable => exact .done (hpost _ _ _ hrel')
        | tooLong => exact .next ⟨rfl, hrel'⟩
        | tooShort => exact .next ⟨rfl, hrel'⟩
    · rw [bracketRound_of_isUseless hcontinue hs huseless,
        bracketRound_of_isUseless hcontinue ht huseless']
      exact .next ⟨rfl, hrel'⟩
  · rw [bracketRound, bracketRound, if_neg hcontinue, if_neg hcontinue]
    exact .done (hpost _ _ _ hrel)

theorem together_halvingRound (a : Halving R n × σ) (b : Halving R n × τ)
    (h : a.1 = b.1 ∧ rel a.2 b.2) :
    Together (fun a b ↦ a.1 = b.1 ∧ rel a.2 b.2) post (halvingRound ask task o exhausted a)
      (halvingRound ask' task o exhausted b) := by
  obtain ⟨c, s⟩ := a
  obtain ⟨c', t⟩ := b
  obtain ⟨rfl, hrel⟩ := h
  by_cases hleft : c.left = 0
  · rw [halvingRound, halvingRound, if_pos hleft, if_pos hleft]
    exact .done (hpost _ _ _ hrel)
  · rcases hask (task.pointAt c.step) s t hrel with
      ⟨s', hs, hstopped⟩ | ⟨t', ht, hstopped⟩ | ⟨halike, hrel'⟩
    · rw [halvingRound, if_neg hleft, hs]
      exact .of_left (fun r' ↦ hstopped _ r' ⟨_, rfl, rfl⟩) _
    · rw [halvingRound.eq_def ask', if_neg hleft, ht]
      exact .of_right (fun r ↦ hstopped r _ ⟨_, rfl, rfl⟩) _
    rcases hs : ask (task.pointAt c.step) s with ⟨answer, s'⟩
    rcases ht : ask' (task.pointAt c.step) t with ⟨answer', t'⟩
    rw [hs, ht] at halike hrel'
    obtain rfl | ⟨huseless, huseless'⟩ := halike
    · rw [halvingRound, halvingRound, if_neg hleft, if_neg hleft, hs, ht]
      cases answer with
      | stopped => exact .done (hpost _ _ _ hrel')
      | rejected => exact .next ⟨rfl, hrel'⟩
      | evaluated observation =>
        dsimp only
        split_ifs
        · exact .done (hpost _ _ _ hrel')
        · exact .next ⟨rfl, hrel'⟩
    · rw [halvingRound_of_isUseless hleft hs huseless, halvingRound_of_isUseless hleft ht huseless']
      exact .next ⟨rfl, hrel'⟩

theorem together_weakWolfe {s : σ} {t : τ} (hrel : rel s t) :
    post (weakWolfe ask task o s) (weakWolfe ask' task o t) :=
  Ends.together (together_bracketRound hask hpost) (ends_searchBracket (.start o.initialStep) s)
    (ends_searchBracket (.start o.initialStep) t) ⟨rfl, hrel⟩

theorem together_backtracking {s : σ} {t : τ} (hrel : rel s t) :
    post (backtracking ask task o s) (backtracking ask' task o t) := by
  rw [← SearchTask.mu_forBacktracking (o := o)] at hask
  exact Ends.together (together_halvingRound hask hpost)
    (ends_halveFrom ask (task.forBacktracking o) o _ ⟨_, 0, o.initialStep, none⟩ s)
    (ends_halveFrom ask' (task.forBacktracking o) o _ ⟨_, 0, o.initialStep, none⟩ t) ⟨rfl, hrel⟩

/-- **Searches whose look-ups stay together stay together**, unless a look-up is stopped that the other
oracle answers. -/
theorem together_lineSearch {s : σ} {t : τ} (hrel : rel s t) :
    post (lineSearch ask task o s) (lineSearch ask' task o t) := by
  rw [lineSearch, lineSearch]
  split_ifs
  · exact together_backtracking hask hpost hrel
  · exact together_weakWolfe hask hpost hrel

end Rounds

namespace Oracle.AlikeAt

variable {ask : Oracle σ R n} {ask' : Oracle τ R n} {task : SearchTask R n} {rel : σ → τ → Prop}

theorem mirrors_weakWolfe (h : ask.AlikeAt task.mu rel ask') (o : SearchOptions R) :
    Mirrors rel id (weakWolfe ask task o) (weakWolfe ask' task o) := fun _ _ ↦
  together_weakWolfe (fun x s t hrel ↦ .inr (.inr (h x s t hrel))) fun _ _ _ hrel ↦ ⟨rfl, hrel⟩

theorem mirrors_backtracking (h : ask.AlikeAt task.mu rel ask') (o : SearchOptions R) :
    Mirrors rel id (backtracking ask task o) (backtracking ask' task o) := fun _ _ ↦
  together_backtracking (fun x s t hrel ↦ .inr (.inr (h x s t hrel))) fun _ _ _ hrel ↦ ⟨rfl, hrel⟩

theorem mirrors_lineSearch (h : ask.AlikeAt task.mu rel ask') (o : SearchOptions R) :
    Mirrors rel id (lineSearch ask task o) (lineSearch ask' task o) := fun _ _ ↦
  together_lineSearch (fun x s t hrel ↦ .inr (.inr (h x s t hrel))) fun _ _ _ hrel ↦ ⟨rfl, hrel⟩

end Oracle.AlikeAt

/-! ## The look-ups of a search -/

/-- The oracle that keeps a list of its look-ups and their answers, in their order. -/
def Oracle.recorded (ask : Oracle σ R n) : Oracle (σ × List (Vector R n × Lookup R n)) R n := fun x w ↦
  ((ask x w.1).1, (ask x w.1).2, w.2 ++ [(x, (ask x w.1).1)])

/-- A way to search, whatever the look-ups act on. -/
abbrev SearchMethod (R : Type) (n : Nat) : Type 1 :=
  ∀ {σ : Type}, Oracle σ R n → SearchTask R n → SearchOptions R → StateM σ (SearchResult R n)

/-- The look-ups that a search makes, with their answers. -/
def lookUpsOf (search : SearchMethod R n) (ask : Oracle σ R n) (task : SearchTask R n)
    (o : SearchOptions R) (s : σ) : List (Vector R n × Lookup R n) :=
  (search ask.recorded task o (s, [])).2.2

omit [Scalar R] in
/-- A recorded look-up makes the list longer by one. -/
theorem Oracle.counts_recorded (ask : Oracle σ R n) : ask.recorded.Counts fun w ↦ w.2.length :=
  fun _ _ ↦ List.length_append.trans rfl

/-- An oracle gives the same answers if it is recorded. -/
theorem Oracle.alikeAt_recorded (ask : Oracle σ R n) (μ : R) :
    ask.recorded.AlikeAt μ (fun w s ↦ w.1 = s) ask := by
  rintro x w _ rfl
  exact ⟨.inl rfl, rfl⟩

/-- Oracles that are alike are so if they are recorded, and the points in their records are the same. -/
theorem Oracle.AlikeAt.recorded {μ : R} {rel : σ → τ → Prop} {ask : Oracle σ R n} {ask' : Oracle τ R n}
    (h : ask.AlikeAt μ rel ask') : ask.recorded.AlikeAt μ
      (fun w w' ↦ rel w.1 w'.1 ∧ w.2.map Prod.fst = w'.2.map Prod.fst) ask'.recorded := by
  rintro x w w' ⟨hrel, hpoints⟩
  obtain ⟨halike, hrel'⟩ := h x w.1 w'.1 hrel
  refine ⟨halike, hrel', ?_⟩
  rw [Oracle.recorded, Oracle.recorded, List.map_append, List.map_append, hpoints]
  rfl

/-! ## What is returned can be used -/

theorem Trial.isUsable_of_foldl_keepLower {trials : List (Trial R n)} {t : Trial R n}
    (h : trials.foldl keepLower none = some t) : t.isUsable = true := by
  induction trials using List.reverseRecOn with
  | nil => cases h
  | append_singleton trials u ih =>
    rw [List.foldl_concat] at h
    rcases keepLower_eq_some h with hbefore | ⟨rfl, husable⟩
    · exact ih hbefore
    · exact husable

section Usable

variable {ask : Oracle σ R n} {task : SearchTask R n} {o : SearchOptions R} {s : σ}

/-- An accepted trial can be used. -/
theorem isUsable_of_lineSearch_eq_ok {out : SearchOutcome R n} (h : (lineSearch ask task o s).1 = .ok out) :
    out.trial.isUsable = true := by
  have hresult : lineSearch ask task o s = (.ok out, (lineSearch ask task o s).2) := Prod.ext h rfl
  rw [lineSearch] at hresult
  split_ifs at hresult
  · obtain ⟨states, -, -, hstates, k, a, hk, hlast, observation, hask, htrial⟩ :=
      backtracking_eq_ok_of_first hresult
    obtain ⟨observation', hanswer, husable, -⟩ := (hstates k a hk).2.2 hlast
    rw [hask] at hanswer
    cases hanswer
    rw [htrial]
    exact husable
  · obtain ⟨-, hverdict, -⟩ := weakWolfe_eq_ok_of_tests hresult
    exact (SearchTask.verdict_eq_acceptable_iff_not.1 hverdict).1

/-- So can the trial that a failed search keeps. -/
theorem isUsable_of_lineSearch_eq_error {e : SearchError R n} {t : Trial R n}
    (h : (lineSearch ask task o s).1 = .error e) (ht : e.kept = some t) : t.isUsable = true := by
  have hexplored := explored_lineSearch ask task o s
  rw [h] at hexplored
  cases hexplored with
  | failed _ hkept => exact Trial.isUsable_of_foldl_keepLower (hkept.symm.trans ht)

end Usable

/-! ## Whole searches -/

/-- **A refusal is the same as an answer that cannot be used.**  If two oracles give the same answers but
for some look-ups that each of them refuses or answers with what cannot be used with the penalty parameter
of the search, then a search asks both for the same points and comes to the same result.  It never returns
anything that cannot be used, neither as an outcome nor as the trial that a failure keeps. -/
theorem searches_take_refusals_alike {rel : σ → τ → Prop} (ask : Oracle σ R n) (ask' : Oracle τ R n)
    (task : SearchTask R n) (o : SearchOptions R) (s : σ) (t : τ)
    (halike : ask.AlikeAt task.mu rel ask') (hrel : rel s t) :
    (lineSearch ask task o s).1 = (lineSearch ask' task o t).1 ∧
      rel (lineSearch ask task o s).2 (lineSearch ask' task o t).2 ∧
      (lookUpsOf lineSearch ask task o s).map Prod.fst
        = (lookUpsOf lineSearch ask' task o t).map Prod.fst ∧
      (∀ out, (lineSearch ask task o s).1 = .ok out → out.trial.isUsable = true) ∧
      ∀ e trial, (lineSearch ask task o s).1 = .error e → e.kept = some trial →
        trial.isUsable = true := by
  obtain ⟨hresult, hstates⟩ := halike.mirrors_lineSearch o s t hrel
  obtain ⟨-, -, hpoints⟩ := halike.recorded.mirrors_lineSearch o (s, []) (t, []) ⟨hrel, rfl⟩
  exact ⟨hresult.symm, hstates, hpoints, fun _ ↦ isUsable_of_lineSearch_eq_ok,
    fun _ _ ↦ isUsable_of_lineSearch_eq_error⟩

/-- The look-ups of a search on a saddle whose first answer is at fault. -/
def faultySaddle (fault : Vector Float 2 → Lookup Float 2) : Oracle Nat Float 2 := fun x calls ↦
  (if calls = 0 then fault x else .evaluated (saddleAt 0.5 x), calls + 1)

/-- The answer of a saddle that has no value. -/
def valuelessSaddle (x : Vector Float 2) : Observation Float 2 := { saddleAt 0.5 x with value := 0 / 0 }

/-- A search on a saddle does not mind whether the first look-up is refused or gives no value. -/
theorem searches_take_refusals_alike_saddle :
    (faultySaddle fun _ ↦ .rejected).AlikeAt (saddleTask 0.5 #v[1, 0]).mu Eq
        (faultySaddle fun x ↦ .evaluated (valuelessSaddle x)) ∧
      (lineSearch (faultySaddle fun _ ↦ .rejected) (saddleTask 0.5 #v[1, 0])
          (Options.standard : Options Float).search 0).1
        = (lineSearch (faultySaddle fun x ↦ .evaluated (valuelessSaddle x)) (saddleTask 0.5 #v[1, 0])
          (Options.standard : Options Float).search 0).1 ∧
      (lookUpsOf lineSearch (faultySaddle fun _ ↦ .rejected) (saddleTask 0.5 #v[1, 0])
          (Options.standard : Options Float).search 0).map Prod.fst
        = (lookUpsOf lineSearch (faultySaddle fun x ↦ .evaluated (valuelessSaddle x))
          (saddleTask 0.5 #v[1, 0]) (Options.standard : Options Float).search 0).map Prod.fst := by
  have hunusable (x : Vector Float 2) : (Lookup.evaluated (valuelessSaddle x)).IsUseless 1 := by
    have hpenalty : Scalar.isFinite ((valuelessSaddle x).penaltyAt 1) = false := by
      show Scalar.isFinite ((1 : Float) * (0 / 0) + violationL1 [] []) = false
      decide +kernel
    show (Scalar.isFinite ((valuelessSaddle x).penaltyAt 1) && _) = false
    rw [hpenalty, Bool.false_and]
  have halike : (faultySaddle fun _ ↦ .rejected).AlikeAt (saddleTask 0.5 #v[1, 0]).mu Eq
      (faultySaddle fun x ↦ .evaluated (valuelessSaddle x)) := by
    rintro x calls _ rfl
    refine ⟨?_, rfl⟩
    rw [faultySaddle, faultySaddle]
    dsimp only
    split_ifs
    · exact .inr ⟨trivial, hunusable x⟩
    · exact .inl rfl
  obtain ⟨hresult, -, hpoints, -⟩ := searches_take_refusals_alike _ _ _
    (Options.standard : Options Float).search 0 0 halike rfl
  exact ⟨halike, hresult, hpoints⟩

end ExactPenalty
