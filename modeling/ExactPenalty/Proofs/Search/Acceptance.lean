import ExactPenalty.Proofs.Comparison
import ExactPenalty.Proofs.Options
import ExactPenalty.Proofs.Search.Calls

/-!
# What the searches accept

Backtracking accepts a step because its test for a sufficient decrease succeeds.  The bracketing search
accepts a step because two tests fail: the penalty is not above the bound, and the slope is not below its
own.  In floating point that is not the same, for a comparison with a number that is none fails both ways.
`accepted_trials` says what either acceptance is worth: backtracking gives the first halving of the step
that decreases sufficiently, and the bracketing search gives the weak Wolfe conditions exactly where the
two sides of its tests are numbers.

A usable trial has a finite penalty and a gradient of finite components, but the slope along the direction
is a sum of products of these with the components of the direction, and it may overflow to a difference of
infinities.  `saddleTask` is a search that accepts its first step for that reason.
-/

set_option autoImplicit false

namespace ExactPenalty

open Linear ExactPenalty.Action

section Rounds

variable {σ R : Type} [Scalar R] {n : Nat} {ask : Oracle σ R n} {task : SearchTask R n}
    {o : SearchOptions R} {limits : BracketLimits} {exhausted : SearchFailure R} {calls : σ → Nat}

/-! ## Look-ups are counted -/

/-- A round that goes on has made one look-up and counted it. -/
theorem calls_of_bracketRound (hask : ask.Counts calls) {a b : Bracket R n × σ}
    (h : bracketRound ask task o limits a = .inl b) :
    calls b.2 = calls a.2 + 1 ∧ b.1.evaluations = a.1.evaluations + 1 := by
  rw [bracketRound] at h
  split_ifs at h
  rcases hanswer : ask (task.pointAt a.1.step) a.2 with ⟨observation | _ | _, s⟩ <;>
    rw [hanswer] at h
  · cases hv : task.verdict o (Trial.ofObservation task a.1.step observation) <;>
      simp only [hv] at h <;> cases h <;>
      exact ⟨hask.eq hanswer, a.1.evaluations_after _ _⟩
  · cases h
    exact ⟨hask.eq hanswer, a.1.evaluations_after _ _⟩
  · cases h

/-! ## The bracketing search -/

/-- The trial that the bracketing search accepts: what no test turned down, and how many look-ups led
there. -/
theorem weakWolfe_eq_ok_of_tests {out : SearchOutcome R n} {s s' : σ}
    (h : weakWolfe ask task o s = (.ok out, s')) :
    (∃ observation s₁, ask (task.pointAt out.trial.step) s₁ = (.evaluated observation, s') ∧
      out.trial.iterate = observation.weighed task.mu) ∧
    task.verdict o out.trial = .acceptable ∧
    ∀ calls, ask.Counts calls → calls s' = calls s + out.evaluations := by
  have hends : Ends (bracketRound ask task o (task.bracketLimits o)) (.start o.initialStep, s)
      (.ok out, s') := h ▸ ends_searchBracket _ s
  obtain ⟨a, hcounted, hlast⟩ := hends.exists_last
    (P := fun a ↦ ∀ calls, ask.Counts calls → calls a.2 = calls s + a.1.evaluations)
    (fun a b hab ha calls hask ↦ by
      obtain ⟨hcalls, hevaluations⟩ := calls_of_bracketRound hask hab
      rw [hcalls, hevaluations, ha calls hask, Nat.add_assoc])
    (fun _ _ ↦ rfl)
  obtain ⟨observation, hanswer, rfl, hverdict⟩ := bracketRound_eq_ok hlast
  refine ⟨⟨observation, a.2, hanswer, rfl⟩, hverdict, fun calls hask ↦ ?_⟩
  rw [hask.eq hanswer, hcounted calls hask, Nat.add_assoc]

/-! ## The backtracking search -/

/-- The look-up finds a usable trial that decreases sufficiently. -/
def FoundDecrease (ask : Oracle σ R n) (task : SearchTask R n) (o : SearchOptions R)
    (a : Halving R n × σ) : Prop :=
  ∃ observation, (ask (task.pointAt a.1.step) a.2).1 = .evaluated observation ∧
    (observation.weighed task.mu).isUsable = true ∧
    (observation.weighed task.mu).penalty ≤ task.decreaseBound o a.1.step

theorem not_foundDecrease_of_halvingRound {a b : Halving R n × σ}
    (h : halvingRound ask task o exhausted a = .inl b) : ¬ FoundDecrease ask task o a := by
  rintro ⟨observation, hanswer, husable, hdecreases⟩
  rw [halvingRound] at h
  split_ifs at h
  rcases hask : ask (task.pointAt a.1.step) a.2 with ⟨answer, s⟩
  rw [hask] at h hanswer
  cases hanswer
  dsimp only at h
  rw [if_pos ⟨husable, hdecreases⟩] at h
  cases h

/-- The state of the backtracking search after a number of look-ups. -/
structure Halving.IsAfter (o : SearchOptions R) (count : Nat) (h : Halving R n) : Prop where
  evaluations_eq : h.evaluations = count
  step_eq : h.step = (· * 0.5)^[count] o.initialStep

theorem Halving.IsAfter.after {count : Nat} {h : Halving R n} (hh : h.IsAfter o count)
    (trial : Option (Trial R n)) : (h.after trial).IsAfter o (count + 1) where
  evaluations_eq := congrArg (· + 1) hh.evaluations_eq
  step_eq := by
    rw [Function.iterate_succ_apply', ← hh.step_eq]
    rfl

theorem isAfter_of_path {a : Halving R n × σ} {rest : List (Halving R n × σ)} {r : SearchResult R n × σ}
    (hpath : Path (halvingRound ask task o exhausted) (a :: rest) r) (ha : a.1.IsAfter o 0) {k : Nat}
    {b : Halving R n × σ} (hb : (a :: rest)[k]? = some b) : b.1.IsAfter o k := by
  have hround (earlier : List (Halving R n × σ)) (x y : Halving R n × σ)
      (hxy : halvingRound ask task o exhausted x = .inl y) (hx : x.1.IsAfter o earlier.length) :
      y.1.IsAfter o (earlier ++ [x]).length := by
    obtain ⟨-, trial, hy⟩ := halvingRound_eq_inl hxy
    rw [hy, List.length_append, List.length_singleton]
    exact hx.after trial
  have hcount := hpath.forall_take (P := fun earlier x ↦ x.1.IsAfter o earlier.length) hround ha hb
  rwa [List.length_take_of_le (List.getElem?_eq_some_iff.1 hb).1.le] at hcount

/-- A path to an accepted step finds a sufficient decrease at its last state only. -/
theorem foundDecrease_iff_of_path {states : List (Halving R n × σ)} {out : SearchOutcome R n} {s : σ}
    (hpath : Path (halvingRound ask task o exhausted) states (.ok out, s)) {k : Nat} {a : Halving R n × σ}
    (ha : states[k]? = some a) : FoundDecrease ask task o a ↔ k + 1 = states.length := by
  have hlt : k < states.length := (List.getElem?_eq_some_iff.1 ha).1
  cases hnext : states[k + 1]? with
  | none =>
    obtain ⟨observation, hask, hout, husable, hdecreases⟩ :=
      halvingRound_eq_ok (hpath.step_of_getElem?_none ha hnext)
    rw [hout] at husable hdecreases
    have hend : k + 1 = states.length := le_antisymm hlt (List.getElem?_eq_none_iff.1 hnext)
    exact iff_of_true ⟨observation, congrArg Prod.fst hask, husable, hdecreases⟩ hend
  | some b =>
    have hafter : k + 1 < states.length := (List.getElem?_eq_some_iff.1 hnext).1
    exact iff_of_false (not_foundDecrease_of_halvingRound (hpath.step_of_getElem? ha hnext)) hafter.ne

/-- The steps that backtracking tries are the halvings of the initial one, in their order; the last of
them is the first that decreases sufficiently, and it is accepted. -/
theorem backtracking_eq_ok_of_first {out : SearchOutcome R n} {s s' : σ}
    (h : backtracking ask task o s = (.ok out, s')) :
    ∃ states, Path (halvingRound ask (task.forBacktracking o) o
        (if 0 ≤ task.slope then .nonDescent else .armijoNotSatisfied)) states (.ok out, s') ∧
      states.length = out.evaluations ∧
      (∀ (k : Nat) (a : Halving R n × σ), states[k]? = some a → a.1.step = (· * 0.5)^[k] o.initialStep ∧
        (FoundDecrease ask (task.forBacktracking o) o a ↔ k + 1 = out.evaluations)) ∧
      ∃ k a, states[k]? = some a ∧ k + 1 = out.evaluations ∧
        ∃ observation, ask ((task.forBacktracking o).pointAt a.1.step) a.2 = (.evaluated observation, s') ∧
          out.trial = .ofObservation (task.forBacktracking o) a.1.step observation := by
  have hends := ends_halveFrom ask (task.forBacktracking o) o
    (if 0 ≤ task.slope then .nonDescent else .armijoNotSatisfied)
    ⟨task.backtrackingLimit o, 0, o.initialStep, none⟩ s
  rw [backtracking] at h
  rw [h] at hends
  obtain ⟨rest, hpath⟩ := hends
  have hsteps {k : Nat} {a : Halving R n × σ} (hk : (_ :: rest)[k]? = some a) : a.1.IsAfter o k :=
    isAfter_of_path hpath ⟨rfl, rfl⟩ hk
  obtain ⟨k, a, hlength, hk, hround⟩ := hpath.exists_last_getElem?
  obtain ⟨observation, hask, hout, -⟩ := halvingRound_eq_ok hround
  have hevaluations : out.evaluations = k + 1 := by
    rw [hout, (hsteps hk).evaluations_eq]
  refine ⟨_, hpath, hlength.trans hevaluations.symm, fun j b hj ↦ ⟨(hsteps hj).step_eq, ?_⟩, k, a, hk,
    hevaluations.symm, observation, hask, by rw [hout]⟩
  rw [foundDecrease_iff_of_path hpath hj, hlength, hevaluations]

/-- **What the searches accept.**  The bracketing search accepts a usable answer of its last look-up,
weighed with the penalty parameter of the search, and reports how many look-ups it made.  The penalty is at
most the bound exactly where the bound is a number, and the slope has risen exactly where it and what it is
compared with are numbers.  Backtracking accepts a usable answer whose penalty is at most the bound along
the direction as backtracking sees it, and the step is the first of the halvings at which that is found. -/
theorem accepted_trials (laws : Scalar.IsOrdered R) (ask : Oracle σ R n) (task : SearchTask R n)
    (o : SearchOptions R) (s s' : σ) (out : SearchOutcome R n) :
    (weakWolfe ask task o s = (.ok out, s') →
      (∃ observation s₁, ask (task.pointAt out.trial.step) s₁ = (.evaluated observation, s') ∧
        out.trial.iterate = observation.weighed task.mu) ∧
      out.trial.isUsable = true ∧
      (out.trial.iterate.penalty ≤ task.decreaseBound o out.trial.step ↔
        Scalar.isNaN (task.decreaseBound o out.trial.step) = false) ∧
      (o.curvature * task.slope < dot out.trial.iterate.penaltyGrad task.direction ↔
        Scalar.isNaN (o.curvature * task.slope) = false ∧
          Scalar.isNaN (dot out.trial.iterate.penaltyGrad task.direction) = false) ∧
      ∀ calls, ask.Counts calls → calls s' = calls s + out.evaluations) ∧
    (backtracking ask task o s = (.ok out, s') →
      (∃ observation s₁,
        ask ((task.forBacktracking o).pointAt out.trial.step) s₁ = (.evaluated observation, s') ∧
          out.trial.iterate = observation.weighed task.mu) ∧
      out.trial.isUsable = true ∧
      out.trial.iterate.penalty ≤ (task.forBacktracking o).decreaseBound o out.trial.step ∧
      ∃ states, Path (halvingRound ask (task.forBacktracking o) o
          (if 0 ≤ task.slope then .nonDescent else .armijoNotSatisfied)) states (.ok out, s') ∧
        states.length = out.evaluations ∧
        (∀ (k : Nat) (a : Halving R n × σ), states[k]? = some a →
          a.1.step = (· * 0.5)^[k] o.initialStep ∧
          (FoundDecrease ask (task.forBacktracking o) o a ↔ k + 1 = out.evaluations)) ∧
        ∃ k, k + 1 = out.evaluations ∧ out.trial.step = (· * 0.5)^[k] o.initialStep) := by
  constructor
  · intro h
    obtain ⟨hanswer, hverdict, hcalls⟩ := weakWolfe_eq_ok_of_tests h
    obtain ⟨husable, hbound, hslope⟩ := SearchTask.verdict_eq_acceptable_iff_not.1 hverdict
    have hpenalty : Scalar.isNaN out.trial.iterate.penalty = false := by
      rw [Trial.isUsable, Iterate.isUsable, Bool.and_eq_true] at husable
      exact laws.isNaN_of_isFinite husable.1
    refine ⟨hanswer, husable, ?_, ?_, hcalls⟩
    · rw [laws.le_iff_isNaN hbound]
      exact and_iff_left hpenalty
    · rw [laws.lt_iff_isNaN hslope]
      exact and_comm
  · intro h
    obtain ⟨states, hpath, hlength, hstates, k, a, hk, hlast, observation, hask, htrial⟩ :=
      backtracking_eq_ok_of_first h
    obtain ⟨observation', hanswer, husable, hdecreases⟩ := (hstates k a hk).2.2 hlast
    rw [hask] at hanswer
    cases hanswer
    rw [htrial]
    refine ⟨⟨observation, a.2, hask, ?_⟩, husable, hdecreases, states, hpath, hlength, hstates, k, hlast,
      (hstates k a hk).1⟩
    rw [Trial.ofObservation, SearchTask.mu_forBacktracking]

end Rounds

/-! ## A saddle in double precision -/

/-- What a saddle in the plane answers: a slope down the first coordinate, and squares of opposite signs
with the factor `c`. -/
def saddleAt (c : Float) (x : Vector Float 2) : Observation Float 2 where
  point := x
  value := -x[0] + c * (x[0] * x[0] - x[1] * x[1])
  grad := #v[-1 + 2 * c * x[0], -(2 * c * x[1])]
  ineq := []
  eq := []

/-- The search from the centre of the saddle along a direction. -/
def saddleTask (c : Float) (d : Vector Float 2) : SearchTask Float 2 where
  start := saddleAt c #v[0, 0]
  direction := d
  slope := dot ((saddleAt c #v[0, 0]).penaltyGradAt 1) d
  mu := 1

@[inherit_doc saddleAt]
def saddleOracle (c : Float) : Oracle Nat Float 2 := fun x calls ↦ (.evaluated (saddleAt c x), calls + 1)

/-- The trial of the first step. -/
def saddleTrial (c : Float) (d : Vector Float 2) : Trial Float 2 :=
  .ofObservation (saddleTask c d) 1 (saddleAt c ((saddleTask c d).pointAt 1))

theorem isValid_standard_float : (Options.standard : Options Float).IsValid :=
  Options.isValid_of_isOk (by decide +kernel)

theorem weakWolfe_saddle {c : Float} {d : Vector Float 2}
    (hcap : BelowCap 0 ((saddleTask c d).evaluationCap (Options.standard : Options Float).search))
    (hverdict : (saddleTask c d).verdict (Options.standard : Options Float).search (saddleTrial c d)
      = .acceptable) :
    weakWolfe (saddleOracle c) (saddleTask c d) (Options.standard : Options Float).search 0
      = (.ok ⟨saddleTrial c d, 1⟩, 1) := by
  have hanswer : saddleOracle c ((saddleTask c d).pointAt 1) 0
      = (.evaluated (saddleAt c ((saddleTask c d).pointAt 1)), 1) := rfl
  exact weakWolfe_of_acceptable hcap hanswer hverdict

/-- On a flat saddle the first step down the first coordinate satisfies the weak Wolfe conditions. -/
theorem accepted_trials_saddle :
    Scalar.IsOrdered Float ∧ ∃ out, weakWolfe (saddleOracle 0.5) (saddleTask 0.5 #v[1, 0])
        (Options.standard : Options Float).search 0 = (.ok out, 1) ∧ out.evaluations = 1 ∧
      out.trial.iterate.penalty ≤ (saddleTask 0.5 #v[1, 0]).decreaseBound
        (Options.standard : Options Float).search out.trial.step ∧
      (Options.standard : Options Float).search.curvature * (saddleTask 0.5 #v[1, 0]).slope
        < dot out.trial.iterate.penaltyGrad (saddleTask 0.5 #v[1, 0]).direction := by
  have haccepted := weakWolfe_saddle (c := 0.5) (d := #v[1, 0]) (by decide +kernel) (by decide +kernel)
  obtain ⟨-, -, hdecreases, hrises, -⟩ :=
    (accepted_trials Scalar.isOrdered_float _ _ _ _ _ _).1 haccepted
  exact ⟨Scalar.isOrdered_float, _, haccepted, rfl, hdecreases.2 (by decide +kernel),
    hrises.2 ⟨by decide +kernel, by decide +kernel⟩⟩

/-- On a steep saddle the bracketing search accepts its first step along the diagonal, although the slope
there is not known to have risen: all components are finite, but their products overflow, and the slope is
not a number. -/
theorem not_slope_rises_on_steep_saddle :
    (Options.standard : Options Float).IsValid ∧ (saddleTask 2.5e307 #v[2, 2]).slope < 0 ∧
    allFinite (saddleTask 2.5e307 #v[2, 2]).direction = true ∧
    ∃ out, weakWolfe (saddleOracle 2.5e307) (saddleTask 2.5e307 #v[2, 2])
        (Options.standard : Options Float).search 0 = (.ok out, 1) ∧
      allFinite out.trial.iterate.penaltyGrad = true ∧
      Scalar.isNaN (dot out.trial.iterate.penaltyGrad (saddleTask 2.5e307 #v[2, 2]).direction) = true ∧
      ¬ (Options.standard : Options Float).search.curvature * (saddleTask 2.5e307 #v[2, 2]).slope
        < dot out.trial.iterate.penaltyGrad (saddleTask 2.5e307 #v[2, 2]).direction :=
  ⟨isValid_standard_float, by decide +kernel, by decide +kernel, _,
    weakWolfe_saddle (by decide +kernel) (by decide +kernel), by decide +kernel, by decide +kernel,
    by decide +kernel⟩

end ExactPenalty
