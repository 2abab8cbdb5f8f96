import ExactPenalty.Proofs.Search.Backtracking

/-!
# What a failed search keeps

A search is a dialogue: the answers it got so far decide the step it tries next, and the trial it would keep
if it failed now.  `SearchTask.stepAfter` is that step, for backtracking a halving of the initial one and
for the bracketing search the next step of the bracket that the answers leave, and `SearchTask.trialsOf`
are the trials that the answers amount to.

## What is here

* `SearchTask.mem_trialsOf`, `SearchTask.exists_getElem?_of_trialsOf` — the trials are the evaluated answers,
  in their order, each at the step that the answers before it lead to.
* `Recalls` — the look-ups so far were made at those steps, and the best trial is what `Trial.keepLower`
  makes of their trials.  Rounds of both searches keep it.
* `failed_searches_keep_first_lowest` — the statement about whole searches, for every way to fail.
-/

set_option autoImplicit false

namespace ExactPenalty

open Linear ExactPenalty.Action

variable {σ R : Type} [Scalar R] {n : Nat}

/-! ## Steps and trials, read off the answers -/

/-- The trial that an answer at a step amounts to. -/
def Lookup.trial? (task : SearchTask R n) (step : R) : Lookup R n → Option (Trial R n)
  | evaluated observation => some (.ofObservation task step observation)
  | rejected => none
  | stopped => none

/-- The look-up counts as an evaluation. -/
def Lookup.isCounted : Lookup R n → Bool
  | evaluated _ => true
  | rejected => true
  | stopped => false

/-- The bracket after one more answer.  Whatever is not known to be too short is too long. -/
def Bracket.answered (task : SearchTask R n) (o : SearchOptions R) (b : Bracket R n) :
    Lookup R n → Bracket R n
  | .evaluated observation =>
    let trial := Trial.ofObservation task b.step observation
    b.after (some trial) (decide (task.verdict o trial ≠ .tooShort))
  | .rejected => b.after none true
  | .stopped => b

/-- Where an element of a filtered list comes from, and that what comes before it is filtered into what is
before. -/
theorem exists_getElem?_of_filterMap_eq {α β : Type} {f : α → Option β} {l : List α} {before after : List β}
    {b : β} (h : l.filterMap f = before ++ b :: after) :
    ∃ (k : Nat) (a : α), l[k]? = some a ∧ f a = some b ∧
      ∀ (j : Nat) (a' : α) (b' : β), j < k → l[j]? = some a' → f a' = some b' → b' ∈ before := by
  obtain ⟨l₁, l₂, rfl, rfl, hrest⟩ := List.filterMap_eq_append_iff.1 h
  obtain ⟨skipped, a, l₃, rfl, hskipped, ha, -⟩ := List.filterMap_eq_cons_iff.1 hrest
  refine ⟨(l₁ ++ skipped).length, a, ?_, ha, fun j a' b' hj ha' hb' ↦ ?_⟩
  · rw [← List.append_assoc, List.getElem?_append_right le_rfl, Nat.sub_self, List.getElem?_cons_zero]
  · rw [← List.append_assoc, List.getElem?_append_left hj] at ha'
    rcases List.mem_append.1 (List.mem_of_getElem? ha') with hmem | hmem
    · exact List.mem_filterMap.2 ⟨a', hmem, hb'⟩
    · cases (hskipped a' hmem).symm.trans hb'

namespace SearchTask

variable (task : SearchTask R n) (o : SearchOptions R)

/-- The bracket that answers leave. -/
def bracketAfter (answers : List (Lookup R n)) : Bracket R n :=
  answers.foldl (Bracket.answered task o) (.start o.initialStep)

/-- The step that a search tries after the given answers. -/
def stepAfter (answers : List (Lookup R n)) : R :=
  if o.backtracking then o.halving answers.length else (task.bracketAfter o answers).step

/-- The trials that answers amount to, each at the step that the answers before it lead to. -/
def trialsOf (answers : List (Lookup R n)) : List (Trial R n) :=
  answers.zipIdx.filterMap fun entry ↦ entry.1.trial? task (task.stepAfter o (answers.take entry.2))

variable {task o} {answers : List (Lookup R n)}

theorem trialsOf_concat (answer : Lookup R n) : task.trialsOf o (answers ++ [answer])
    = task.trialsOf o answers ++ (answer.trial? task (task.stepAfter o answers)).toList := by
  have hearlier (entry : Lookup R n × Nat) (hentry : entry ∈ answers.zipIdx) :
      (answers ++ [answer]).take entry.2 = answers.take entry.2 := by
    obtain ⟨-, hlt, -⟩ := List.mem_zipIdx hentry
    exact List.take_append_of_le_length (by omega)
  rw [trialsOf, trialsOf, List.zipIdx_append, List.filterMap_append]
  congr 1
  · refine List.filterMap_congr fun entry hentry ↦ ?_
    rw [hearlier entry hentry]
  · simp only [List.zipIdx_singleton, List.filterMap_cons, List.filterMap_nil, Nat.zero_add, List.take_left']
    cases answer.trial? task (task.stepAfter o answers) <;> rfl

/-- An evaluated answer amounts to a trial, at the step that the answers before it lead to. -/
theorem mem_trialsOf {k : Nat} {observation : Observation R n}
    (hk : answers[k]? = some (.evaluated observation)) :
    .ofObservation task (task.stepAfter o (answers.take k)) observation ∈ task.trialsOf o answers :=
  List.mem_filterMap.2 ⟨(_, k), List.mem_zipIdx_iff_getElem?.2 hk, rfl⟩

/-- A trial is an evaluated answer, at the step that the answers before it lead to; and what was evaluated
earlier is among the trials before it. -/
theorem exists_getElem?_of_trialsOf {t : Trial R n} {before after : List (Trial R n)}
    (h : task.trialsOf o answers = before ++ t :: after) :
    ∃ (k : Nat) (observation : Observation R n), answers[k]? = some (.evaluated observation) ∧
      t = .ofObservation task (task.stepAfter o (answers.take k)) observation ∧
      ∀ (j : Nat) (other : Observation R n), j < k → answers[j]? = some (.evaluated other) →
        .ofObservation task (task.stepAfter o (answers.take j)) other ∈ before := by
  obtain ⟨k, ⟨answer, k'⟩, hk, ht, hearlier⟩ := exists_getElem?_of_filterMap_eq h
  rw [List.getElem?_zipIdx, Option.map_eq_some_iff] at hk
  obtain ⟨answer', hk, hentry⟩ := hk
  rw [Nat.zero_add] at hentry
  cases hentry
  cases answer with
  | evaluated observation =>
    refine ⟨k, observation, hk, (Option.some.inj ht).symm, fun j other hj hother ↦ ?_⟩
    refine hearlier j (.evaluated other, j) _ hj ?_ rfl
    rw [List.getElem?_zipIdx, hother, Nat.zero_add]
    rfl
  | rejected => cases ht
  | stopped => cases ht

end SearchTask

/-! ## Rounds -/

/-- The look-ups of the list were made at the steps that the answers before them lead to, and the best trial
is kept of all trials of the list. -/
structure Recalls (task : SearchTask R n) (o : SearchOptions R) (log : List (Vector R n × Lookup R n))
    (best : Option (Trial R n)) : Prop where
  asked : ∀ (k : Nat) (entry : Vector R n × Lookup R n), log[k]? = some entry →
    entry.1 = task.pointAt (task.stepAfter o ((log.map Prod.snd).take k))
  best_eq : best = (task.trialsOf o (log.map Prod.snd)).foldl Trial.keepLower none

namespace Recalls

variable {task : SearchTask R n} {o : SearchOptions R} {log : List (Vector R n × Lookup R n)}
    {best : Option (Trial R n)} {step : R}

theorem nil : Recalls task o [] none where
  asked _ _ h := nomatch h
  best_eq := rfl

/-- One more look-up, at the step that the answers so far lead to. -/
theorem concat (h : Recalls task o log best) (hstep : step = task.stepAfter o (log.map Prod.snd))
    (answer : Lookup R n) : Recalls task o (log ++ [(task.pointAt step, answer)])
      ((answer.trial? task step).elim best (Trial.keepLower best)) where
  asked := by
    rw [List.map_append]
    refine forall_getElem?_concat (P := fun k (entry : Vector R n × Lookup R n) ↦ entry.1
      = task.pointAt (task.stepAfter o ((log.map Prod.snd ++ [answer]).take k))) (fun k entry hk ↦ ?_) ?_
    · have hlt : k < (log.map Prod.snd).length := by
        rw [List.length_map]
        exact (List.getElem?_eq_some_iff.1 hk).1
      rw [List.take_append_of_le_length hlt.le]
      exact h.asked k entry hk
    · rw [List.take_left' (List.length_map _), hstep]
  best_eq := by
    rw [List.map_append, List.map_singleton, SearchTask.trialsOf_concat, ← hstep, List.foldl_append,
      ← h.best_eq]
    cases answer.trial? task step <;> rfl

end Recalls

section Rounds

variable {ask : Oracle σ R n} {task : SearchTask R n} {o : SearchOptions R} {limits : BracketLimits}
    {exhausted : SearchFailure R}

/-- A round that goes on leaves the bracket to the answer that it got. -/
theorem bracketRound_eq_inl_answered {a b : Bracket R n × σ}
    (h : bracketRound ask task o limits a = .inl b) :
    b.1 = a.1.answered task o (ask (task.pointAt a.1.step) a.2).1 ∧
      b.2 = (ask (task.pointAt a.1.step) a.2).2 ∧
      b.1.best = ((ask (task.pointAt a.1.step) a.2).1.trial? task a.1.step).elim a.1.best
        (Trial.keepLower a.1.best) := by
  rw [bracketRound] at h
  split_ifs at h
  rcases hask : ask (task.pointAt a.1.step) a.2 with ⟨observation | _ | _, s⟩ <;> rw [hask] at h
  · cases hverdict : task.verdict o (Trial.ofObservation task a.1.step observation) <;>
      simp only [hverdict] at h <;> cases h <;>
      exact ⟨by simp [Bracket.answered, hverdict], rfl, Bracket.best_after _ _ _⟩
  · cases h
    exact ⟨rfl, rfl, Bracket.best_after _ _ _⟩
  · cases h

/-- A round that goes on keeps what its answer calls for. -/
theorem halvingRound_eq_inl_answered {a b : Halving R n × σ}
    (h : halvingRound ask task o exhausted a = .inl b) :
    b.1.best = ((ask (task.pointAt a.1.step) a.2).1.trial? task a.1.step).elim a.1.best
      (Trial.keepLower a.1.best) := by
  rw [halvingRound] at h
  split_ifs at h
  rcases hask : ask (task.pointAt a.1.step) a.2 with ⟨observation | _ | _, s⟩ <;> rw [hask] at h
  · dsimp only at h
    split_ifs at h
    cases h
    rfl
  · cases h
    rfl
  · cases h

/-- A round that gives up keeps the best trial as it is: it did not look up anything, or was stopped. -/
theorem bracketRound_eq_error_kept {a : Bracket R n × σ} {e : SearchError R n} {s : σ}
    (h : bracketRound ask task o limits a = .inr (.error e, s)) :
    e.kept = a.1.best ∧ (s = a.2 ∨ ask (task.pointAt a.1.step) a.2 = (.stopped, s)) := by
  rw [bracketRound] at h
  split_ifs at h
  · rcases hask : ask (task.pointAt a.1.step) a.2 with ⟨observation | _ | _, s'⟩ <;> rw [hask] at h
    · cases hverdict : task.verdict o (Trial.ofObservation task a.1.step observation) <;>
        simp only [hverdict] at h <;> cases h
    · cases h
    · cases h
      exact ⟨rfl, .inr rfl⟩
  · cases h
    exact ⟨rfl, .inl rfl⟩

@[inherit_doc bracketRound_eq_error_kept]
theorem halvingRound_eq_error_kept {a : Halving R n × σ} {e : SearchError R n} {s : σ}
    (h : halvingRound ask task o exhausted a = .inr (.error e, s)) :
    e.kept = a.1.best ∧ (s = a.2 ∨ ask (task.pointAt a.1.step) a.2 = (.stopped, s)) := by
  rw [halvingRound] at h
  split_ifs at h
  · cases h
    exact ⟨rfl, .inl rfl⟩
  · rcases hask : ask (task.pointAt a.1.step) a.2 with ⟨observation | _ | _, s'⟩ <;> rw [hask] at h
    · dsimp only at h
      split_ifs at h
      cases h
    · cases h
    · cases h
      exact ⟨rfl, .inr rfl⟩

/-! ## Searches that are recorded -/

/-- The bracketing search between two rounds: the look-ups behind it, and the bracket they leave. -/
structure BracketRecalls (task : SearchTask R n) (o : SearchOptions R)
    (a : Bracket R n × σ × List (Vector R n × Lookup R n)) : Prop where
  recalls : Recalls task o a.2.2 a.1.best
  bracket_eq : a.1 = task.bracketAfter o (a.2.2.map Prod.snd)

/-- Backtracking between two rounds: the look-ups behind it, and how many they are. -/
structure HalvingRecalls (task : SearchTask R n) (o : SearchOptions R)
    (a : Halving R n × σ × List (Vector R n × Lookup R n)) : Prop where
  recalls : Recalls task o a.2.2 a.1.best
  isAfter : a.1.IsAfter o a.2.2.length

/-- A round that gives up leaves the best trial as it is, whether it was stopped or did not look up
anything. -/
theorem Recalls.failed {best : Option (Trial R n)} {step : R} {w w' : σ × List (Vector R n × Lookup R n)}
    (h : Recalls task o w.2 best) (hstep : step = task.stepAfter o (w.2.map Prod.snd))
    (hlast : w' = w ∨ ask.recorded (task.pointAt step) w = (.stopped, w')) : Recalls task o w'.2 best := by
  rcases hlast with rfl | hstopped
  · exact h
  · have hlog : w'.2 = w.2 ++ [(task.pointAt step, (ask (task.pointAt step) w.1).1)] :=
      (congrArg (fun r ↦ r.2.2) hstopped).symm
    have hanswer : (ask (task.pointAt step) w.1).1 = .stopped := congrArg Prod.fst hstopped
    rw [hlog, hanswer]
    exact h.concat hstep .stopped

section Bracketing

variable {a b : Bracket R n × σ × List (Vector R n × Lookup R n)} (hback : o.backtracking = false)
include hback

theorem BracketRecalls.step_eq (h : BracketRecalls task o a) :
    a.1.step = task.stepAfter o (a.2.2.map Prod.snd) := by
  rw [SearchTask.stepAfter, hback, if_neg Bool.false_ne_true, ← h.bracket_eq]

theorem BracketRecalls.round (ha : BracketRecalls task o a)
    (h : bracketRound ask.recorded task o limits a = .inl b) : BracketRecalls task o b := by
  obtain ⟨hbracket, hstate, hbest⟩ := bracketRound_eq_inl_answered h
  have hlog : b.2.2 = a.2.2 ++ [(task.pointAt a.1.step, (ask (task.pointAt a.1.step) a.2.1).1)] := by
    rw [hstate]
    rfl
  constructor
  · rw [hlog, hbest]
    exact ha.recalls.concat (ha.step_eq hback) _
  · rw [hlog, List.map_append, SearchTask.bracketAfter, List.foldl_append]
    change b.1 = Bracket.answered task o (task.bracketAfter o (a.2.2.map Prod.snd)) _
    rw [← ha.bracket_eq]
    exact hbracket

end Bracketing

section Backtracking

variable {a b : Halving R n × σ × List (Vector R n × Lookup R n)} (hback : o.backtracking = true)
include hback

theorem HalvingRecalls.step_eq (h : HalvingRecalls task o a) :
    a.1.step = task.stepAfter o (a.2.2.map Prod.snd) := by
  rw [SearchTask.stepAfter, if_pos hback, List.length_map]
  exact h.isAfter.step_eq

theorem HalvingRecalls.round (ha : HalvingRecalls task o a)
    (h : halvingRound ask.recorded task o exhausted a = .inl b) : HalvingRecalls task o b := by
  obtain ⟨hstate, -⟩ := halvingRound_eq_inl_asked h
  obtain ⟨-, trial, hb⟩ := halvingRound_eq_inl h
  have hlog : b.2.2 = a.2.2 ++ [(task.pointAt a.1.step, (ask (task.pointAt a.1.step) a.2.1).1)] := by
    rw [hstate]
    rfl
  constructor
  · rw [hlog, halvingRound_eq_inl_answered h]
    exact ha.recalls.concat (ha.step_eq hback) _
  · rw [hb, hlog, List.length_append, List.length_singleton]
    exact ha.isAfter.after trial

end Backtracking

end Rounds

/-! ## Whole searches -/

section Searches

variable {ask : Oracle σ R n} {task : SearchTask R n} {o : SearchOptions R} {s s' : σ}

/-- The answers that a search gets to its look-ups, in their order. -/
def answersOf (search : SearchMethod R n) (ask : Oracle σ R n) (task : SearchTask R n)
    (o : SearchOptions R) (s : σ) : List (Lookup R n) :=
  (lookUpsOf search ask task o s).map Prod.snd

theorem lineSearch_recorded (ask : Oracle σ R n) (task : SearchTask R n) (o : SearchOptions R) (s : σ) :
    lineSearch ask.recorded task o (s, [])
      = ((lineSearch ask task o s).1, (lineSearch ask task o s).2, lookUpsOf lineSearch ask task o s) :=
  eq_of_mirrors_recorded lineSearch ((ask.alikeAt_recorded task.mu).mirrors_lineSearch o) s

/-- A failed search recalls all of its look-ups. -/
theorem recalls_of_lineSearch {e : SearchError R n} (h : lineSearch ask task o s = (.error e, s')) :
    Recalls (task.forSearch o) o (lookUpsOf lineSearch ask task o s) e.kept := by
  have hrecorded := lineSearch_recorded ask task o s
  rw [h, lineSearch] at hrecorded
  rw [SearchTask.forSearch]
  split_ifs at hrecorded ⊢ with hback
  · have hends := ends_halveFrom ask.recorded (task.forBacktracking o) o
      (if 0 ≤ task.slope then .nonDescent else .armijoNotSatisfied)
      ⟨task.backtrackingLimit o, 0, o.initialStep, none⟩ (s, [])
    change Ends _ _ (backtracking ask.recorded task o (s, [])) at hends
    rw [hrecorded] at hends
    obtain ⟨a, ha, hlast⟩ := hends.exists_last (P := HalvingRecalls (task.forBacktracking o) o)
      (fun _ _ hround ha ↦ ha.round hback hround) ⟨.nil, rfl, rfl⟩
    obtain ⟨hkept, hstate⟩ := halvingRound_eq_error_kept hlast
    have hrecalls := ha.recalls.failed (ha.step_eq hback) hstate
    rwa [← hkept] at hrecalls
  · rw [Bool.not_eq_true] at hback
    have hends : Ends (bracketRound ask.recorded task o (task.bracketLimits o)) (.start o.initialStep, s, [])
        (weakWolfe ask.recorded task o (s, [])) := ends_searchBracket _ _
    rw [hrecorded] at hends
    obtain ⟨a, ha, hlast⟩ := hends.exists_last (P := BracketRecalls task o)
      (fun _ _ hround ha ↦ ha.round hback hround) ⟨.nil, rfl⟩
    obtain ⟨hkept, hstate⟩ := bracketRound_eq_error_kept hlast
    have hrecalls := ha.recalls.failed (ha.step_eq hback) hstate
    rwa [← hkept] at hrecalls

/-- A search reports how many of its answers count. -/
theorem evaluations_lineSearch (ask : Oracle σ R n) (task : SearchTask R n) (o : SearchOptions R) (s : σ) :
    (lineSearch ask task o s).1.evaluations
      = (answersOf lineSearch ask task o s).countP Lookup.isCounted := by
  have hlookups := lookups_lineSearch ask.recorded task o (s, [])
  rw [lineSearch_recorded] at hlookups
  let count (w : σ × List (Vector R n × Lookup R n)) : ℕ := (w.2.map Prod.snd).countP Lookup.isCounted
  have hask (x : Vector R n) (w : σ × List (Vector R n × Lookup R n)) :
      count (ask.recorded x w).2 = count w + (ask.recorded x w).1.cost := by
    show ((ask.recorded x w).2.2.map Prod.snd).countP Lookup.isCounted = _
    rw [Oracle.recorded, List.map_append, List.countP_append]
    cases (ask x w.1).1 <;> rfl
  exact ((hlookups.count_eq hask).trans (Nat.zero_add _)).symm

/-- No usable trial has a lower penalty than the first with the lowest. -/
theorem Trial.IsFirstLowest.penalty_le (laws : Scalar.IsOrdered R) {t : Trial R n} {trials : List (Trial R n)}
    (h : t.IsFirstLowest trials) {u : Trial R n} (hu : u ∈ trials) (husable : u.isUsable = true) :
    t.iterate.penalty ≤ u.iterate.penalty := by
  obtain ⟨ht, before, after, rfl, hbefore, hafter⟩ := h
  have hnumber {v : Trial R n} (hv : v.isUsable = true) : Scalar.isNaN v.iterate.penalty = false :=
    laws.isNaN_of_isFinite (isFinite_penalty hv)
  have hle : ¬ u.iterate.penalty < t.iterate.penalty → t.iterate.penalty ≤ u.iterate.penalty :=
    (laws.not_lt_iff (hnumber husable) (hnumber ht)).1
  refine hle ?_
  rcases List.mem_append.1 hu with hu | hu
  · exact laws.asymm (hbefore u hu husable)
  · rcases List.mem_cons.1 hu with rfl | hu
    · exact fun hlt ↦ laws.asymm hlt hlt
    · exact hafter u hu husable

/-- **What a failed search keeps.**  A search asks for the point of the step that the answers so far lead to,
each time.  If it fails, for whatever reason, it keeps no trial exactly where no answer can be used with the
penalty parameter of the search.  Otherwise it keeps the first of the usable ones with the lowest penalty,
weighed with that parameter, and the step at which it was looked up.  It reports as many evaluations as there
were look-ups that did not meet the end of the budget. -/
theorem failed_searches_keep_first_lowest (laws : Scalar.IsOrdered R) (ask : Oracle σ R n)
    (task : SearchTask R n) (o : SearchOptions R) (s s' : σ) (e : SearchError R n)
    (h : lineSearch ask task o s = (.error e, s')) :
    (∀ (k : Nat) (x : Vector R n) (answer : Lookup R n),
      (lookUpsOf lineSearch ask task o s)[k]? = some (x, answer) →
        x = (task.forSearch o).pointAt
          ((task.forSearch o).stepAfter o ((answersOf lineSearch ask task o s).take k))) ∧
    (e.kept = none ↔ ∀ observation, .evaluated observation ∈ answersOf lineSearch ask task o s →
      (observation.weighed task.mu).isUsable = false) ∧
    (∀ t, e.kept = some t → ∃ (k : Nat) (observation : Observation R n),
      (answersOf lineSearch ask task o s)[k]? = some (.evaluated observation) ∧
      t.step = (task.forSearch o).stepAfter o ((answersOf lineSearch ask task o s).take k) ∧
      t.iterate = observation.weighed task.mu ∧ t.iterate.isUsable = true ∧
      ∀ (j : Nat) (other : Observation R n),
        (answersOf lineSearch ask task o s)[j]? = some (.evaluated other) →
        (other.weighed task.mu).isUsable = true →
          t.iterate.penalty ≤ (other.weighed task.mu).penalty ∧
            (j < k → t.iterate.penalty < (other.weighed task.mu).penalty)) ∧
    e.evaluations = (answersOf lineSearch ask task o s).countP Lookup.isCounted := by
  have hrecalls := recalls_of_lineSearch h
  have hkept : e.kept = ((task.forSearch o).trialsOf o (answersOf lineSearch ask task o s)).foldl
      Trial.keepLower none := hrecalls.best_eq
  have htrial (step : R) (observation : Observation R n) :
      (Trial.ofObservation (task.forSearch o) step observation).iterate = observation.weighed task.mu := by
    rw [Trial.ofObservation, SearchTask.mu_forSearch]
  refine ⟨fun k x answer hk ↦ hrecalls.asked k _ hk, ?_, fun t ht ↦ ?_, ?_⟩
  · rw [hkept, Trial.foldl_keepLower_eq_none_iff]
    constructor
    · intro hnone observation hmem
      obtain ⟨k, hk⟩ := List.mem_iff_getElem?.1 hmem
      rw [← htrial]
      exact hnone _ (SearchTask.mem_trialsOf hk)
    · intro hnone t ht
      obtain ⟨before, after, hsplit⟩ := List.append_of_mem ht
      obtain ⟨k, observation, hk, rfl, -⟩ := SearchTask.exists_getElem?_of_trialsOf hsplit
      have hunusable := hnone observation (List.mem_of_getElem? hk)
      rwa [← htrial] at hunusable
  · have hlowest : t.IsFirstLowest _ :=
      Trial.isFirstLowest_of_foldl laws.ordersFinite (hkept.symm.trans ht)
    have hminimal {u : Trial R n} := hlowest.penalty_le laws (u := u)
    obtain ⟨husable, before, after, hsplit, hbefore, -⟩ := hlowest
    obtain ⟨k, observation, hk, rfl, hearlier⟩ := SearchTask.exists_getElem?_of_trialsOf hsplit
    refine ⟨k, observation, hk, rfl, htrial _ _, husable, fun j other hj hother ↦ ?_⟩
    rw [← htrial ((task.forSearch o).stepAfter o ((answersOf lineSearch ask task o s).take j))] at hother ⊢
    exact ⟨hminimal (SearchTask.mem_trialsOf hj) hother,
      fun hlt ↦ hbefore _ (hearlier j other hlt hj) hother⟩
  · have hevaluations := evaluations_lineSearch ask task o s
    rwa [h] at hevaluations

end Searches

/-- Backtracking with three evaluations. -/
def threeTrials : SearchOptions Float :=
  { (Options.standard : Options Float).search with backtracking := true, limit := some 3 }

/-- The trial of a step along a long direction on the saddle. -/
def longTrial (step : Float) : Trial Float 2 :=
  .ofObservation (saddleTask 0.5 #v[8, 0]) step (saddleAt 0.5 ((saddleTask 0.5 #v[8, 0]).pointAt step))

/-- Along a long direction three evaluations are too few, the first of which is refused. -/
theorem lineSearch_faultySaddle :
    lineSearch (faultySaddle fun _ ↦ .rejected) (saddleTask 0.5 #v[8, 0]) threeTrials 0
      = (.error ⟨.armijoNotSatisfied, 3, some (longTrial 0.25)⟩, 3) := by
  have hlimit : (saddleTask 0.5 #v[8, 0]).backtrackingLimit threeTrials = 3 := by
    have hcap : (saddleTask 0.5 #v[8, 0]).evaluationCap threeTrials = some 3 :=
      if_neg (by decide +kernel)
    rw [SearchTask.backtrackingLimit, hcap, halvingSteps, if_pos (.inl (by decide +kernel)), bisectionLimit]
    dsimp only
    omega
  have htask : (saddleTask 0.5 #v[8, 0]).forBacktracking threeTrials = saddleTask 0.5 #v[8, 0] :=
    if_neg (by decide)
  have hrefused (step : Float) : faultySaddle (fun _ ↦ .rejected)
      ((saddleTask 0.5 #v[8, 0]).pointAt step) 0 = (.rejected, 1) := rfl
  have hanswer (step : Float) (calls : Nat) : faultySaddle (fun _ ↦ .rejected)
      ((saddleTask 0.5 #v[8, 0]).pointAt step) (calls + 1)
        = (.evaluated (saddleAt 0.5 ((saddleTask 0.5 #v[8, 0]).pointAt step)), calls + 2) := rfl
  have hfirst : Trial.keepLower none (longTrial (1 * 0.5)) = some (longTrial (1 * 0.5)) :=
    if_pos (by decide +kernel)
  have hlower : Trial.keepLower (some (longTrial (1 * 0.5))) (longTrial (1 * 0.5 * 0.5))
      = some (longTrial (1 * 0.5 * 0.5)) := by
    rw [Trial.keepLower, if_pos (by decide +kernel), if_pos (by decide +kernel)]
  have hstart : threeTrials.initialStep = 1 := rfl
  have hstep : (1 * 0.5 * 0.5 : Float) = 0.25 := by decide +kernel
  rw [lineSearch, if_pos (by decide), backtracking, hlimit, htask, if_neg (by decide +kernel), halveFrom,
    bind_apply, hrefused]
  dsimp only
  rw [halveFrom, bind_apply, hanswer]
  dsimp only
  rw [if_neg (by decide +kernel), halveFrom, bind_apply, hanswer]
  dsimp only
  rw [if_neg (by decide +kernel), halveFrom, hstart, ← longTrial, ← longTrial, hfirst, hlower, hstep]
  rfl

/-- It keeps the last of its trials, which is the lowest. -/
theorem failed_searches_keep_first_lowest_saddle :
    Scalar.IsOrdered Float ∧ ∃ e s', lineSearch (faultySaddle fun _ ↦ .rejected)
        (saddleTask 0.5 #v[8, 0]) threeTrials 0 = (.error e, s') ∧ e.evaluations = 3 ∧
      (answersOf lineSearch (faultySaddle fun _ ↦ .rejected) (saddleTask 0.5 #v[8, 0]) threeTrials 0).countP
        Lookup.isCounted = 3 ∧
      ∃ t, e.kept = some t ∧ t.step = 0.25 ∧ t.iterate.isUsable = true := by
  obtain ⟨-, -, hkept, hevaluations⟩ := failed_searches_keep_first_lowest Scalar.isOrdered_float _ _ _ _ _ _
    lineSearch_faultySaddle
  obtain ⟨k, observation, -, -, -, husable, -⟩ := hkept _ rfl
  exact ⟨Scalar.isOrdered_float, _, _, lineSearch_faultySaddle, rfl, hevaluations.symm, _, rfl, rfl, husable⟩

end ExactPenalty
