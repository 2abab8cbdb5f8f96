import Mathlib
import ExactPenalty.Proofs.Frame.Problem
import ExactPenalty.Proofs.InStep
import ExactPenalty.Proofs.Search

/-!
# Line searches in another frame

A search compares values of the penalty function and slopes, and its limits depend on the length of
the direction.  None of these depends on the frame, so a search tries the same steps in every frame and
comes to the same result (`mirrors_lineSearch`), as long as its look-ups do.
-/

set_option autoImplicit false

namespace ExactPenalty

open Linear ExactPenalty.Action

variable {n : Nat} (F : Frame n)

/-! ## Tasks -/

namespace SearchTask

variable (task : SearchTask ℝ n) (o : SearchOptions ℝ)

noncomputable def inFrame : SearchTask ℝ n where
  start := task.start.inFrame F
  direction := F.vec task.direction
  slope := task.slope
  mu := task.mu / F.unit

theorem pointAt_inFrame (step : ℝ) : (task.inFrame F).pointAt step = F.point (task.pointAt step) :=
  F.along_point _ _ _

theorem decreaseBound_inFrame (step : ℝ) :
    (task.inFrame F).decreaseBound o step = task.decreaseBound o step :=
  congrArg (· + o.decrease * step * task.slope) (task.start.penaltyAt_inFrame F task.mu)

theorem bracketLimits_inFrame : (task.inFrame F).bracketLimits o = task.bracketLimits o := by
  rw [bracketLimits, bracketLimits, inFrame, F.norm₂_vec]
  rfl

theorem normalized_inFrame : (task.inFrame F).normalized = task.normalized.inFrame F := by
  rw [normalized, normalized, inFrame, F.norm₂_vec]
  dsimp only
  split_ifs
  · rw [← F.vec_map_div]
    rfl
  · rfl

theorem forBacktracking_inFrame :
    (task.inFrame F).forBacktracking o = (task.forBacktracking o).inFrame F := by
  rw [forBacktracking, forBacktracking, normalized_inFrame]
  split_ifs <;> rfl

theorem backtrackingLimit_inFrame :
    (task.inFrame F).backtrackingLimit o = task.backtrackingLimit o := by
  have hlength : norm₂ ((task.forBacktracking o).inFrame F).direction
      = norm₂ (task.forBacktracking o).direction := F.norm₂_vec _
  rw [backtrackingLimit, backtrackingLimit, forBacktracking_inFrame, hlength]
  rfl

end SearchTask

/-! ## Look-ups and trials -/

noncomputable def Lookup.inFrame : Lookup ℝ n → Lookup ℝ n
  | evaluated o => evaluated (o.inFrame F)
  | rejected => rejected
  | stopped => stopped

namespace Trial

noncomputable def inFrame (t : Trial ℝ n) : Trial ℝ n where
  step := t.step
  iterate := t.iterate.inFrame F

@[simp] theorem penalty_inFrame (t : Trial ℝ n) :
    (t.inFrame F).iterate.penalty = t.iterate.penalty := t.iterate.penalty_inFrame F

theorem keepLower_inFrame (best : Option (Trial ℝ n)) (t : Trial ℝ n) :
    keepLower (best.map (·.inFrame F)) (t.inFrame F) = (keepLower best t).map (·.inFrame F) := by
  rw [keepLower.eq_def, keepLower.eq_def, t.isUsable_real, (t.inFrame F).isUsable_real, if_pos rfl,
    if_pos rfl]
  cases best with
  | none => rfl
  | some b =>
    dsimp only [Option.map]
    rw [penalty_inFrame, penalty_inFrame]
    split_ifs <;> rfl

variable (task : SearchTask ℝ n) (o : SearchOptions ℝ) (t : Trial ℝ n)

theorem decreases_inFrame : (t.inFrame F).Decreases (task.inFrame F) o ↔ t.Decreases task o := by
  rw [Decreases, Decreases, task.decreaseBound_inFrame, penalty_inFrame]
  rfl

theorem verdict_inFrame : (task.inFrame F).verdict o (t.inFrame F) = task.verdict o t := by
  have hslope : dot (t.inFrame F).iterate.penaltyGrad (task.inFrame F).direction
      = dot t.iterate.penaltyGrad task.direction := by
    show dot (t.iterate.inFrame F).penaltyGrad (F.vec task.direction) = _
    rw [t.iterate.penaltyGrad_inFrame, F.dot_vec]
  rw [SearchTask.verdict, SearchTask.verdict, t.isUsable_real, (t.inFrame F).isUsable_real,
    task.decreaseBound_inFrame, penalty_inFrame, hslope]
  rfl

end Trial

/-! ## Results -/

noncomputable def SearchError.inFrame (e : SearchError ℝ n) : SearchError ℝ n :=
  { e with kept := e.kept.map (·.inFrame F) }

noncomputable def SearchOutcome.inFrame (out : SearchOutcome ℝ n) : SearchOutcome ℝ n :=
  { out with trial := out.trial.inFrame F }

noncomputable def SearchResult.inFrame : SearchResult ℝ n → SearchResult ℝ n
  | .ok out => .ok (out.inFrame F)
  | .error e => .error (e.inFrame F)

/-! ## The bracketing search -/

namespace Bracket

variable (b : Bracket ℝ n)

noncomputable def inFrame : Bracket ℝ n := { b with best := b.best.map (·.inFrame F) }

theorem counted_inFrame (trial : Option (Trial ℝ n)) :
    (b.inFrame F).counted (trial.map (·.inFrame F)) = (b.counted trial).inFrame F := by
  cases trial with
  | none => rfl
  | some t =>
    have hbest := Trial.keepLower_inFrame F b.best t
    exact congrArg (fun best ↦ ({ b with evaluations := b.evaluations + 1, best } : Bracket ℝ n)) hbest

theorem narrowed_inFrame (tooLong : Bool) :
    (b.inFrame F).narrowed tooLong = (b.narrowed tooLong).inFrame F := by
  cases tooLong <;> rfl

theorem advanced_inFrame : (b.inFrame F).advanced = b.advanced.inFrame F := by
  have hupper : (b.inFrame F).upper.finite? = b.upper.finite? := rfl
  rw [advanced.eq_def, advanced.eq_def, hupper]
  cases b.upper.finite? <;> rfl

theorem after_inFrame (trial : Option (Trial ℝ n)) (tooLong : Bool) :
    (b.inFrame F).after (trial.map (·.inFrame F)) tooLong = (b.after trial tooLong).inFrame F := by
  rw [after, after, counted_inFrame, narrowed_inFrame, advanced_inFrame]

end Bracket

/-! ## The backtracking search -/

namespace Halving

variable (h : Halving ℝ n)

noncomputable def inFrame : Halving ℝ n := { h with best := h.best.map (·.inFrame F) }

theorem after_inFrame (trial : Option (Trial ℝ n)) :
    (h.inFrame F).after (trial.map (·.inFrame F)) = (h.after trial).inFrame F := by
  cases trial with
  | none => rfl
  | some t =>
    have hbest := Trial.keepLower_inFrame F h.best t
    exact congrArg (Halving.mk (h.left - 1) (h.evaluations + 1) (h.step * 0.5)) hbest

end Halving

/-! ## Both searches -/

section Searches

variable {S T : Type} {rel : S → T → Prop} {ask : Oracle S ℝ n} {ask' : Oracle T ℝ n}
    (hask : ∀ x, Mirrors rel (Lookup.inFrame F) (ask x) (ask' (F.point x))) {task : SearchTask ℝ n}
    {o : SearchOptions ℝ}
include hask

/-- Rounds of the bracketing search try the same step. -/
theorem together_bracketRound_inFrame {limits : BracketLimits} (a : Bracket ℝ n × S)
    (b : Bracket ℝ n × T) (h : Mirrored rel (Bracket.inFrame F) a b) :
    Together (Mirrored rel (Bracket.inFrame F)) (Mirrored rel (SearchResult.inFrame F))
      (bracketRound ask task o limits a) (bracketRound ask' (task.inFrame F) o limits b) := by
  obtain ⟨c, s⟩ := a
  obtain ⟨c', t⟩ := b
  obtain ⟨rfl, hrel⟩ := h
  have hcontinue : (c.inFrame F).MayContinue limits ↔ c.MayContinue limits := Iff.rfl
  have hstep : (c.inFrame F).step = c.step := rfl
  rw [bracketRound, bracketRound]
  dsimp only at hrel ⊢
  rw [hstep]
  by_cases h : c.MayContinue limits
  · rw [if_pos h, if_pos (hcontinue.2 h), task.pointAt_inFrame]
    have hmirror := hask (task.pointAt c.step) s t hrel
    rcases hs : ask (task.pointAt c.step) s with ⟨answer, s'⟩
    rcases ht : ask' (F.point (task.pointAt c.step)) t with ⟨answer', t'⟩
    rw [hs, ht] at hmirror
    obtain ⟨rfl, hrel'⟩ := hmirror
    cases answer with
    | stopped => exact .done ⟨rfl, hrel'⟩
    | rejected => exact .next ⟨c.after_inFrame F none true, hrel'⟩
    | evaluated observation =>
      have hafter := c.after_inFrame F (some (.ofObservation task c.step observation))
      have htrial : Trial.ofObservation (task.inFrame F) c.step (observation.inFrame F)
          = (Trial.ofObservation task c.step observation).inFrame F := rfl
      dsimp only [Lookup.inFrame]
      rw [htrial, Trial.verdict_inFrame]
      cases task.verdict o (.ofObservation task c.step observation) with
      | acceptable => exact .done ⟨rfl, hrel'⟩
      | tooLong => exact .next ⟨hafter true, hrel'⟩
      | tooShort => exact .next ⟨hafter false, hrel'⟩
  · rw [if_neg h, if_neg (mt hcontinue.1 h)]
    exact .done ⟨rfl, hrel⟩

/-- Rounds of the backtracking search try the same step. -/
theorem together_halvingRound_inFrame {exhausted : SearchFailure ℝ} (a : Halving ℝ n × S)
    (b : Halving ℝ n × T) (h : Mirrored rel (Halving.inFrame F) a b) :
    Together (Mirrored rel (Halving.inFrame F)) (Mirrored rel (SearchResult.inFrame F))
      (halvingRound ask task o exhausted a) (halvingRound ask' (task.inFrame F) o exhausted b) := by
  obtain ⟨c, s⟩ := a
  obtain ⟨c', t⟩ := b
  obtain ⟨rfl, hrel⟩ := h
  have hleft : (c.inFrame F).left = c.left := rfl
  have hstep : (c.inFrame F).step = c.step := rfl
  rw [halvingRound, halvingRound]
  dsimp only at hrel ⊢
  rw [hleft, hstep]
  by_cases h : c.left = 0
  · rw [if_pos h, if_pos h]
    exact .done ⟨rfl, hrel⟩
  rw [if_neg h, if_neg h, task.pointAt_inFrame]
  have hmirror := hask (task.pointAt c.step) s t hrel
  rcases hs : ask (task.pointAt c.step) s with ⟨answer, s'⟩
  rcases ht : ask' (F.point (task.pointAt c.step)) t with ⟨answer', t'⟩
  rw [hs, ht] at hmirror
  obtain ⟨rfl, hrel'⟩ := hmirror
  cases answer with
  | stopped => exact .done ⟨rfl, hrel'⟩
  | rejected => exact .next ⟨rfl, hrel'⟩
  | evaluated observation =>
    let trial := Trial.ofObservation task c.step observation
    have haccept : ((trial.inFrame F).isUsable = true ∧ (trial.inFrame F).Decreases (task.inFrame F) o)
        ↔ (trial.isUsable = true ∧ trial.Decreases task o) := by
      rw [trial.decreases_inFrame F, trial.isUsable_real, (trial.inFrame F).isUsable_real]
    show Together _ _ (if trial.isUsable = true ∧ trial.Decreases task o then _ else _)
      (if (trial.inFrame F).isUsable = true ∧ (trial.inFrame F).Decreases (task.inFrame F) o then _
        else _)
    by_cases hdecreases : trial.isUsable = true ∧ trial.Decreases task o
    · rw [if_pos hdecreases, if_pos (haccept.2 hdecreases)]
      exact .done ⟨rfl, hrel'⟩
    · rw [if_neg hdecreases, if_neg (mt haccept.1 hdecreases)]
      exact .next ⟨c.after_inFrame F (some trial), hrel'⟩

/-- **Searches do the same in every frame.** -/
theorem mirrors_lineSearch (task : SearchTask ℝ n) (o : SearchOptions ℝ) :
    Mirrors rel (SearchResult.inFrame F) (lineSearch ask task o)
      (lineSearch ask' (task.inFrame F) o) := by
  intro s t hrel
  rw [lineSearch, lineSearch]
  split_ifs
  · rw [backtracking, backtracking, task.forBacktracking_inFrame, task.backtrackingLimit_inFrame]
    exact Ends.together (together_halvingRound_inFrame F hask)
      (ends_halveFrom ask (task.forBacktracking o) o _ ⟨_, 0, o.initialStep, none⟩ s)
      (ends_halveFrom ask' ((task.forBacktracking o).inFrame F) o _ ⟨_, 0, o.initialStep, none⟩ t)
      ⟨rfl, hrel⟩
  · rw [weakWolfe, weakWolfe, task.bracketLimits_inFrame]
    exact Ends.together (together_bracketRound_inFrame F hask)
      (ends_searchBracket (.start o.initialStep) s) (ends_searchBracket (.start o.initialStep) t)
      ⟨rfl, hrel⟩

end Searches

end ExactPenalty
