import ExactPenalty.Proofs.Rounding
import ExactPenalty.Proofs.Run.Climb
import ExactPenalty.Proofs.Search.Brackets
import ExactPenalty.Proofs.Search.Refusals

/-!
# Directions that do not descend

A direction descends if its slope is below zero.  The options may let other directions through; a search
along one of them keeps to a limit of its own and calls its failure by its name.  But the search asks
whether the slope is at least zero, and that is the opposite question only if the slope is a number.  The
slope of a finite direction along a finite gradient need not be one: products may overflow to infinities of
both signs.  Such a direction is taken for one that descends, without the limit, and its failure is reported
as that of an ordinary search.

Whatever the slope, the rung is not tried again.  A slope that is a number and not below zero is reported
before the bracket is looked at.  A slope that is none makes every comparison with it false, so no trial is
too short: the bracket has an upper end from the first look-up on.

## What is here

* `length_lookUpsOf_le`, `reason_eq_nonDescent` — the limit and the failure where the slope is a number.
* `Bracket.OnlyShrinks`, `reason_weakWolfe_of_isNaN` — the failure where it is none.
* `IterationContext.tryLevel_without_descent` — what a rung makes of both.
* `searches_without_descent` — the statement, and `steepTask`, a search of the second kind.
-/

set_option autoImplicit false

namespace ExactPenalty

open Linear ExactPenalty.Action

/-! ## Slopes that are numbers -/

section Numbers

variable {σ R : Type} [Scalar R] {n : Nat} {ask : Oracle σ R n} {task : SearchTask R n}
    {o : SearchOptions R} {s : σ}

/-- A number that is not below zero is at least zero, and nothing else is. -/
theorem SearchTask.slope_nonneg_iff (laws : Scalar.IsOrdered R) (hslope : ¬ task.slope < 0) :
    0 ≤ task.slope ↔ Scalar.isNaN task.slope = false :=
  ⟨fun hle ↦ (laws.isNaN_of_le hle).2, fun hnumber ↦ (laws.not_lt_iff hnumber laws.isNaN_zero).1 hslope⟩

theorem SearchTask.not_slope_nonneg_of_isNaN (laws : Scalar.IsOrdered R)
    (hslope : Scalar.isNaN task.slope = true) : ¬ 0 ≤ task.slope := fun hle ↦ by
  rw [(laws.isNaN_of_le hle).2] at hslope
  cases hslope

theorem SearchTask.exists_evaluationCap (hslope : 0 ≤ task.slope) :
    ∃ cap, task.evaluationCap o = some cap ∧ cap ≤ o.nondescentLimit := by
  rw [evaluationCap, if_pos hslope]
  refine ⟨_, rfl, ?_⟩
  cases o.limit with
  | none => exact le_rfl
  | some limit => exact min_le_right limit _

/-- Along a direction that is known not to descend, a search keeps to the limit for such directions. -/
theorem length_lookUpsOf_le (hslope : 0 ≤ task.slope) :
    (lookUpsOf lineSearch ask task o s).length ≤ o.nondescentLimit := by
  obtain ⟨cap, hcap, hle⟩ := SearchTask.exists_evaluationCap (o := o) hslope
  rw [lookUpsOf, lineSearch]
  split_ifs
  · have hcalls := calls_backtracking_le ask.counts_recorded task o (s, [])
    have hlimit : task.backtrackingLimit o ≤ cap := by
      rw [SearchTask.backtrackingLimit, hcap]
      exact min_le_left cap _
    exact (hcalls.trans_eq (Nat.zero_add _)).trans (hlimit.trans hle)
  · have hcalls := calls_weakWolfe_le ask.counts_recorded task o (s, [])
    have hlimit : task.bracketingLimit o ≤ cap := by
      rw [SearchTask.bracketingLimit, hcap]
      exact min_le_left cap _
    exact (hcalls.trans_eq (Nat.zero_add _)).trans (hlimit.trans hle)

/-- If such a search fails within the budget, it says that the direction does not descend. -/
theorem reason_eq_nonDescent (hslope : 0 ≤ task.slope) {e : SearchError R n} {s' : σ}
    (h : lineSearch ask task o s = (.error e, s')) :
    e.reason = .budgetExhausted ∨ e.reason = .nonDescent :=
  (lineSearch_eq_error h).imp And.left fun hreason ↦ hreason.2.2 hslope

end Numbers

/-! ## Slopes that are not numbers -/

section NotNumbers

variable {σ R : Type} [Scalar R] {n : Nat} {ask : Oracle σ R n} {task : SearchTask R n}
    {o : SearchOptions R} {limits : BracketLimits} {s s' : σ} {e : SearchError R n}

/-- No trial is too short if it is compared with what is no number. -/
theorem not_foundShort_of_isNaN (laws : Scalar.IsRounded R) (hslope : Scalar.isNaN task.slope = true)
    (a : Bracket R n × σ) : ¬ FoundShort ask task o a := by
  rintro ⟨observation, -, -, -, hshort⟩
  have hnumber := (laws.isNaN_of_le hshort).2
  rw [laws.isNaN_mul hslope] at hnumber
  cases hnumber

/-- Nothing has been tried, or every step was too long, and the next step is finite. -/
structure Bracket.OnlyShrinks (step : R) (b : Bracket R n) : Prop where
  lower_eq : b.lower = 0
  isFinite_step : Scalar.isFinite b.step = true
  upper_cases : b = .start step ∨ ∃ u, b.upper = .finite u ∧ Scalar.isFinite u = true

namespace Bracket.OnlyShrinks

variable {step : R} {a b : Bracket R n × σ}

theorem start (hstep : Scalar.isFinite step = true) :
    (Bracket.start step : Bracket R n).OnlyShrinks step :=
  ⟨rfl, hstep, .inl rfl⟩

/-- The step is halved. -/
theorem round (laws : Scalar.IsRounded R) (hslope : Scalar.isNaN task.slope = true)
    (ha : a.1.OnlyShrinks step) (h : bracketRound ask task o limits a = .inl b) :
    b.1.OnlyShrinks step := by
  rcases bracketRound_eq_inl_cases h with ⟨hshort, -⟩ | ⟨-, trial, hb⟩
  · exact absurd hshort (not_foundShort_of_isNaN laws hslope a)
  · have hlower : (a.1.after trial true).lower = 0 := (a.1.lower_after trial true).trans ha.lower_eq
    have hupper : (a.1.after trial true).upper = .finite a.1.step := a.1.upper_after trial true
    rw [hb]
    refine ⟨hlower, ?_, .inr ⟨_, hupper, ha.isFinite_step⟩⟩
    rw [step_after_of_finite ha.isFinite_step hupper, hlower]
    exact laws.isFinite_middle ha.isFinite_step

end Bracket.OnlyShrinks

theorem reason_weakWolfe_of_isNaN (laws : Scalar.IsRounded R) (hstep : Scalar.isFinite o.initialStep = true)
    (hlimit : o.limit ≠ some 0) (hslope : Scalar.isNaN task.slope = true)
    (h : weakWolfe ask task o s = (.error e, s')) :
    e.reason = .budgetExhausted ∨ ∃ lower upper, e.reason = .wolfeNotSatisfied lower upper := by
  have hnot := SearchTask.not_slope_nonneg_of_isNaN laws.toIsOrdered hslope
  have hends : Ends (bracketRound ask task o (task.bracketLimits o)) (.start o.initialStep, s)
      (.error e, s') := h ▸ ends_searchBracket _ s
  obtain ⟨a, ha, hlast⟩ := hends.exists_last (P := fun a ↦ a.1.OnlyShrinks o.initialStep)
    (fun _ _ hround ha ↦ ha.round laws hslope hround) (.start hstep)
  rcases bracketRound_eq_error hlast with ⟨hreason, -⟩ | ⟨hcontinue, rfl⟩
  · exact .inl hreason
  · -- The search may make its first look-up, so it has made one.
    have hstart : (Bracket.start o.initialStep : Bracket R n).MayContinue (task.bracketLimits o) := by
      refine ⟨?_, Nat.zero_le _, Nat.zero_le _⟩
      show BelowCap 0 (task.evaluationCap o)
      rw [SearchTask.evaluationCap, if_neg hnot]
      cases hmost : o.limit with
      | none => trivial
      | some limit => exact Nat.pos_of_ne_zero fun hzero ↦ hlimit (hzero ▸ hmost)
    obtain ⟨u, hu, hfinite⟩ := ha.upper_cases.resolve_left fun heq ↦ hcontinue (heq ▸ hstart)
    refine .inr ⟨a.1.lower, u, ?_⟩
    rw [Bracket.failure, hu]
    dsimp only
    rw [if_neg hnot, hfinite]
    rfl

theorem reason_backtracking_of_not (hslope : ¬ 0 ≤ task.slope)
    (h : backtracking ask task o s = (.error e, s')) :
    e.reason = .budgetExhausted ∨ e.reason = .armijoNotSatisfied := by
  have hends := ends_halveFrom ask (task.forBacktracking o) o
    (if 0 ≤ task.slope then .nonDescent else .armijoNotSatisfied)
    ⟨task.backtrackingLimit o, 0, o.initialStep, none⟩ s
  rw [backtracking] at h
  rw [h] at hends
  obtain ⟨a, -, hlast⟩ := hends.exists_last (P := fun _ ↦ True) (fun _ _ _ _ ↦ trivial) trivial
  exact (halvingRound_eq_error hlast).imp And.left fun hreason ↦ hreason.trans (if_neg hslope)

end NotNumbers

/-! ## What a search and a rung make of them -/

section Rungs

variable {σ R : Type} [Scalar R] {n : Nat}

/-- The failure of a search along a direction that does not descend. -/
def SearchFailure.IsWithoutDescent (slope : R) (failure : SearchFailure R) : Prop :=
  failure = .budgetExhausted ∨
    if Scalar.isNaN slope then
      (∃ lower upper, failure = .wolfeNotSatisfied lower upper) ∨ failure = .armijoNotSatisfied
    else failure = .nonDescent

namespace SearchFailure.IsWithoutDescent

variable {slope : R} {failure : SearchFailure R}

/-- It is never that no step was too long. -/
theorem ne_notBracketed (h : failure.IsWithoutDescent slope) (step : R) : failure ≠ .notBracketed step := by
  rintro rfl
  rw [IsWithoutDescent] at h
  split_ifs at h <;> simp at h

theorem isNaN_of_nonDescent (h : failure.IsWithoutDescent slope) (hreason : failure = .nonDescent) :
    Scalar.isNaN slope = false := by
  rw [IsWithoutDescent, hreason] at h
  split_ifs at h with hnan
  · simp at h
  · exact Bool.eq_false_iff.2 hnan

theorem isNaN_of_unacceptable (h : failure.IsWithoutDescent slope)
    (hreason : (∃ lower upper, failure = .wolfeNotSatisfied lower upper) ∨ failure = .armijoNotSatisfied) :
    Scalar.isNaN slope = true := by
  rw [IsWithoutDescent] at h
  split_ifs at h with hnan
  · exact hnan
  · rcases hreason with ⟨lower, upper, rfl⟩ | rfl <;> simp at h

end SearchFailure.IsWithoutDescent

theorem isWithoutDescent_of_lineSearch (laws : Scalar.IsRounded R) {options : Options R}
    (hoptions : options.IsValid) {ask : Oracle σ R n} {task : SearchTask R n} {s s' : σ}
    {e : SearchError R n} (hslope : ¬ task.slope < 0)
    (h : lineSearch ask task options.search s = (.error e, s')) :
    e.reason.IsWithoutDescent task.slope := by
  have hnumber := SearchTask.slope_nonneg_iff laws.toIsOrdered hslope
  rw [SearchFailure.IsWithoutDescent]
  cases hnan : Scalar.isNaN task.slope with
  | false =>
    rw [if_neg Bool.false_ne_true]
    exact reason_eq_nonDescent (hnumber.2 hnan) h
  | true =>
    rw [if_pos rfl]
    rw [lineSearch] at h
    split_ifs at h
    · have hnot := SearchTask.not_slope_nonneg_of_isNaN laws.toIsOrdered hnan
      exact (reason_backtracking_of_not hnot h).imp_right .inr
    · exact (reason_weakWolfe_of_isNaN laws hoptions.initialStep_isFinite hoptions.searchLimit_ne_zero hnan
        h).imp_right .inl

namespace IterationContext

variable {it : IterationContext σ R n} {level : Level} {left : Nat} {c : Climb R n}
    {s s₁ : Session σ R n} {d : Direction R n}

/-- A search along the direction of a rung fails as one without descent does. -/
theorem isWithoutDescent_of_searchAlong (laws : Scalar.IsRounded R) (hoptions : it.options.IsValid)
    (hslope : ¬ d.slope < 0) {e : SearchError R n} {c' : Climb R n} {s' : Session σ R n}
    (h : it.searchAlong c d s = ((.error e, c'), s')) :
    e.reason.IsWithoutDescent d.slope ∧ c'.reattempts = c.reattempts := by
  obtain ⟨rfl, s₁, s₂, hsearch, -⟩ := searchAlong_eq h
  have htask : ¬ (it.task (c.lowered d) d).slope < 0 := hslope
  exact ⟨isWithoutDescent_of_lineSearch laws hoptions htask hsearch, c.reattempts_lowered d⟩

/-- **A rung whose direction does not descend is tried once**, and its failure says so if the slope is a
number. -/
theorem tryLevel_without_descent (laws : Scalar.IsRounded R) (hoptions : it.options.IsValid)
    (hd : it.makeDirection level c.mu s = (.ok d, s₁)) (hslope : ¬ d.slope < 0) :
    (it.tryLevel level left c s).1.2.reattempts = c.reattempts ∧
      ∀ failure, (it.tryLevel level left c s).1.1 = .failed failure →
        failure = if Scalar.isNaN d.slope then .unacceptable else .noDescent := by
  have hattempted := it.attempted_tryOnce level left c s
  have hfails {e : SearchError R n} {d' : Direction R n} {s₁' s₂ : Session σ R n} {c' : Climb R n}
      (hd' : it.makeDirection level c.mu s = (.ok d', s₁'))
      (hs : it.searchAlong c d' s₁' = ((.error e, c'), s₂)) :
      e.reason.IsWithoutDescent d.slope ∧ c'.reattempts = c.reattempts := by
    cases hd.symm.trans hd'
    exact isWithoutDescent_of_searchAlong laws hoptions hslope hs
  rw [tryLevel_apply]
  rcases htry : it.tryOnce level left c s with ⟨⟨ended, c'⟩, s'⟩
  rw [htry] at hattempted
  dsimp only at hattempted ⊢
  cases hattempted with
  | qp hd' => cases hd.symm.trans hd'
  | nonDescent hd' => cases hd.symm.trans hd'
  | degenerate hd' => cases hd.symm.trans hd'
  | moved hd' hs =>
    refine ⟨?_, nofun⟩
    rw [(searchAlong_eq hs).1, Climb.reattempts_lowered]
  | stopped hd' hs => exact ⟨(hfails hd' hs).2, nofun⟩
  | ascending hd' hs hreason =>
    obtain ⟨hwithout, hreattempts⟩ := hfails hd' hs
    refine ⟨hreattempts, fun failure hfailure ↦ ?_⟩
    cases hfailure
    rw [hwithout.isNaN_of_nonDescent hreason]
    rfl
  | unacceptable hd' hs hreason =>
    obtain ⟨hwithout, hreattempts⟩ := hfails hd' hs
    refine ⟨hreattempts, fun failure hfailure ↦ ?_⟩
    cases hfailure
    rw [hwithout.isNaN_of_unacceptable hreason]
    rfl
  | unbounded hd' hs hreason => exact absurd hreason ((hfails hd' hs).1.ne_notBracketed _)
  | again hd' hs hreason => exact absurd hreason ((hfails hd' hs).1.ne_notBracketed _)

end IterationContext

/-- **What becomes of a direction that does not descend**, if the options let it through.  If its slope is a
number, a search along it makes no more look-ups than the options allow for such directions, and a failure
within the budget says that the direction does not descend.  If its slope is no number, a failure within the
budget says that no step was acceptable.  In both cases the rung is not tried again, and it fails as its
search did. -/
theorem searches_without_descent (laws : Scalar.IsRounded R) {options : Options R}
    (hoptions : options.IsValid) :
    (∀ (ask : Oracle σ R n) (task : SearchTask R n) (s : σ), ¬ task.slope < 0 →
      (Scalar.isNaN task.slope = false →
        (lookUpsOf lineSearch ask task options.search s).length ≤ options.search.nondescentLimit) ∧
      ∀ e s', lineSearch ask task options.search s = (.error e, s') →
        e.reason = .budgetExhausted ∨ if Scalar.isNaN task.slope then
          (∃ lower upper, e.reason = .wolfeNotSatisfied lower upper) ∨ e.reason = .armijoNotSatisfied
        else e.reason = .nonDescent) ∧
    ∀ (it : IterationContext σ R n) (level : Level) (left : Nat) (c : Climb R n) (s s₁ : Session σ R n)
      (d : Direction R n), it.options = options → it.makeDirection level c.mu s = (.ok d, s₁) →
      ¬ d.slope < 0 →
      (it.tryLevel level left c s).1.2.reattempts = c.reattempts ∧
        ∀ failure, (it.tryLevel level left c s).1.1 = .failed failure →
          failure = if Scalar.isNaN d.slope then .unacceptable else .noDescent := by
  refine ⟨fun ask task s hslope ↦ ⟨fun hnumber ↦ ?_, fun e s' h ↦ ?_⟩, ?_⟩
  · exact length_lookUpsOf_le ((SearchTask.slope_nonneg_iff laws.toIsOrdered hslope).2 hnumber)
  · exact isWithoutDescent_of_lineSearch laws hoptions hslope h
  · rintro it level left c s s₁ d rfl hd hslope
    exact it.tryLevel_without_descent laws hoptions hd hslope

/-! ## A slope that overflows -/

/-- What a steep plane answers: it rises along one coordinate as it falls along the other. -/
def steepAt (x : Vector Float 2) : Observation Float 2 where
  point := x
  value := 1e308 * (x.get ⟨0, Nat.zero_lt_two⟩ - x.get ⟨1, Nat.one_lt_two⟩)
  grad := #v[1e308, -1e308]
  ineq := []
  eq := []

/-- The search along the diagonal, where the plane neither rises nor falls. -/
def steepTask : SearchTask Float 2 where
  start := steepAt (.replicate 2 0)
  direction := .replicate 2 2
  slope := dot ((steepAt (.replicate 2 0)).penaltyGradAt 1) (.replicate 2 2)
  mu := 1

@[inherit_doc steepAt]
def steepOracle : Oracle Unit Float 2 := fun x ↦ pure (.evaluated (steepAt x))

/-- Options that allow two evaluations in a search, and one along a direction that does not descend. -/
def steepOptions : Options Float :=
  { Options.standard with
    search :=
      { (Options.standard : Options Float).search with
        nondescentLimit := 1, limit := some 2, backtracking := true } }

/-- An iteration on the steep plane, with a curvature matrix that makes the diagonal its direction. -/
def steepIteration : IterationContext Unit Float 2 where
  env :=
    { evaluate := fun x ↦ pure
        { value := (steepAt x).value
          grad := #[1e308, -1e308]
          ineq := []
          ineqGrad := ⟨2, []⟩
          eq := []
          eqGrad := ⟨2, []⟩ }
      solve := fun _ ↦ pure (.error .nonFiniteData)
      eigen := fun _ ↦ { values := .replicate _ 1, vectors := .identity Float _ }
      elapsed := fun _ ↦ 0 }
  options := steepOptions
  shape := (0, 0)
  observation := steepAt (.replicate 2 0)
  curvature := #v[#v[-2e-308, 0], #v[0, 2e-308]]
  conditioned := #v[#v[-2e-308, 0], #v[0, 2e-308]]
  engaged := false
  reattempts := steepOptions.reattempts

theorem isValid_steepOptions : steepOptions.IsValid :=
  Options.isValid_of_isOk (by decide +kernel)

/-- The diagonal is made, and its slope is no number. -/
theorem exists_makeDirection_steep (s : Session Unit Float 2) :
    ∃ d s₁, steepIteration.makeDirection .quasiNewton 1 s = (.ok d, s₁) ∧ ¬ d.slope < 0 ∧
      Scalar.isNaN d.slope = true := by
  let p : Proposal Float 2 :=
    { vector := -(steepIteration.curvature.mulVec (steepIteration.observation.penaltyGradAt 1))
      mu := 1
      steered := none }
  have hmade : (steepIteration.makeDirection .quasiNewton 1 s).1
      = steepIteration.toDirectionContext.judge true .quasiNewton p := rfl
  have hjudged : ((steepIteration.toDirectionContext.judge true .quasiNewton p).toOption.any fun d ↦
      decide (¬ d.slope < 0) && Scalar.isNaN d.slope) = true := by decide +kernel
  cases hd : steepIteration.toDirectionContext.judge true .quasiNewton p with
  | error e =>
    rw [hd] at hjudged
    cases hjudged
  | ok d =>
    rw [hd] at hjudged
    obtain ⟨hslope, hnan⟩ := (Bool.and_eq_true _ _).mp hjudged
    exact ⟨d, _, Prod.ext (hmade.trans hd) rfl, of_decide_eq_true hslope, hnan⟩

/-- A direction whose slope is one, and a direction whose slope is none. -/
theorem searches_without_descent_steep :
    Scalar.IsRounded Float ∧ steepOptions.IsValid ∧
    (¬ (saddleTask 0.5 #v[-1, 0]).slope < 0 ∧ Scalar.isNaN (saddleTask 0.5 #v[-1, 0]).slope = false ∧
      (lookUpsOf lineSearch (saddleOracle 0.5) (saddleTask 0.5 #v[-1, 0]) steepOptions.search 0).length ≤ 1) ∧
    ∃ d s₁, steepIteration.makeDirection .quasiNewton 1 (.start (.ofSeed 0) ()) = (.ok d, s₁) ∧
      ¬ d.slope < 0 ∧ Scalar.isNaN d.slope = true ∧
      (steepIteration.tryLevel .quasiNewton 1 (.start 1) (.start (.ofSeed 0) ())).1.2.reattempts = 0 := by
  have hslope : ¬ (saddleTask 0.5 #v[-1, 0]).slope < 0 := by decide +kernel
  have hnumber : Scalar.isNaN (saddleTask 0.5 #v[-1, 0]).slope = false := by decide +kernel
  have hsearch := ((searches_without_descent Scalar.isRounded_float isValid_steepOptions).1
    (saddleOracle 0.5) (saddleTask 0.5 #v[-1, 0]) 0 hslope).1 hnumber
  obtain ⟨d, s₁, hd, hnot, hnan⟩ := exists_makeDirection_steep (.start (.ofSeed 0) ())
  have hrung := ((searches_without_descent Scalar.isRounded_float isValid_steepOptions).2 steepIteration
    .quasiNewton 1 (.start 1) (.start (.ofSeed 0) ()) s₁ d rfl hd hnot).1
  exact ⟨Scalar.isRounded_float, isValid_steepOptions, ⟨hslope, hnumber, hsearch⟩, d, s₁, hd, hnot, hnan,
    hrung⟩

/-- The search failed for want of a decrease, after so many evaluations. -/
def SearchResult.missesDecrease (evaluations : Nat) : SearchResult R n → Bool
  | .error ⟨.armijoNotSatisfied, count, _⟩ => count == evaluations
  | _ => false

omit [Scalar R] in
theorem SearchResult.exists_of_missesDecrease {evaluations : Nat} {r : SearchResult R n}
    (h : r.missesDecrease evaluations = true) :
    ∃ e, r = .error e ∧ e.evaluations = evaluations ∧ e.reason = .armijoNotSatisfied := by
  rcases r with ⟨reason, count, kept⟩ | out
  · cases reason with
    | armijoNotSatisfied => exact ⟨_, rfl, beq_iff_eq.1 h, rfl⟩
    | _ => cases h
  · cases h

/-- The slope of the diagonal overflows to a difference of infinities.  It is not below zero, but the search
evaluates twice where one evaluation is allowed, and does not say that the direction does not descend. -/
theorem not_told_on_steep_diagonal :
    steepOptions.IsValid ∧ steepOptions.search.nondescentLimit = 1 ∧ ¬ steepTask.slope < 0 ∧
    allFinite steepTask.direction = true ∧
    allFinite (steepTask.start.penaltyGradAt steepTask.mu) = true ∧
    ∃ e s, lineSearch steepOracle steepTask steepOptions.search () = (.error e, s) ∧
      e.evaluations = 2 ∧ e.reason = .armijoNotSatisfied := by
  have hlimit : steepTask.backtrackingLimit steepOptions.search = 2 := by
    have hcap : steepTask.evaluationCap steepOptions.search = some 2 := by decide +kernel
    rw [SearchTask.backtrackingLimit, hcap, halvingSteps, if_pos (.inl (by decide +kernel)), bisectionLimit]
    dsimp only
    omega
  have hnan : Scalar.isNaN steepTask.slope = true := by decide +kernel
  have hexhausted := SearchTask.not_slope_nonneg_of_isNaN Scalar.isOrdered_float hnan
  have hsearch : lineSearch steepOracle steepTask steepOptions.search ()
      = halveFrom steepOracle steepTask steepOptions.search .armijoNotSatisfied 2 0 1 none () := by
    show backtracking steepOracle steepTask steepOptions.search () = _
    rw [backtracking, hlimit, if_neg hexhausted]
    rfl
  have hmisses : (halveFrom steepOracle steepTask steepOptions.search .armijoNotSatisfied 2 0 1 none
      ()).1.missesDecrease 2 = true := by decide +kernel
  rcases hrun : halveFrom steepOracle steepTask steepOptions.search .armijoNotSatisfied 2 0 1 none ()
    with ⟨result, s⟩
  rw [hrun] at hmisses hsearch
  obtain ⟨e, rfl, hevaluations, hreason⟩ := SearchResult.exists_of_missesDecrease hmisses
  exact ⟨isValid_steepOptions, rfl, by decide +kernel, by decide +kernel, by decide +kernel, e, s, hsearch,
    hevaluations, hreason⟩

end Rungs

end ExactPenalty
