import ExactPenalty.Proofs.Action
import ExactPenalty.Proofs.Evaluation
import ExactPenalty.Run.Session
import Mathlib.Tactic.SplitIfs

/-!
# Look-ups

What a look-up lets through is the answer that the problem gave at the point, and it has the shape of
the problem and finite entries only.  `lookUp_cases` says what a look-up does to the session: nothing
where a limit is reached, and otherwise it evaluates the problem once, whatever becomes of the answer.
-/

set_option autoImplicit false

namespace ExactPenalty

open Session ExactPenalty.Action

variable {σ R : Type} [Scalar R] {n : Nat} {run : RunContext σ R n} {x : Vector R n}
    {s s' : Session σ R n} {o : Observation R n}

omit [Scalar R] in
/-- A note goes to the end of the transcript. -/
@[simp] theorem Session.toList_note (e : Event R n) (s : Session σ R n) :
    (note e s).2.transcript.toList = s.transcript.toList ++ [e] := Array.toList_push

/-- What a look-up makes of an answer at a point, for a problem of a given shape. -/
def Evaluation.screened (answer : Evaluation R) (shape : Nat × Nat) (x : Vector R n) :
    Lookup R n :=
  match (answer.toObservation? x).filter fun o ↦ decide (o.shape = shape) with
  | some o => if o.isFinite then .evaluated o else .rejected
  | none => .rejected

/-- An answer that passes is one at the point that was asked for. -/
theorem Evaluation.point_of_screened {answer : Evaluation R} {shape : Nat × Nat}
    (h : answer.screened shape x = .evaluated o) : o.point = x := by
  rw [screened] at h
  split at h
  · next o' ho' =>
    split_ifs at h
    cases h
    exact (eq_of_toObservation?_eq_some (Option.filter_eq_some_iff.1 ho').1).1
  · cases h

namespace RunContext

omit [Scalar R] in
theorem shaped?_eq_some {answer : Evaluation R} (h : run.shaped? x answer = some o) :
    answer.toObservation? x = some o ∧ o.shape = run.shape := by
  rw [shaped?, Option.filter_eq_some_iff] at h
  exact ⟨h.1, of_decide_eq_true h.2⟩

/-- What a look-up lets through. -/
theorem lookUp_eq_evaluated (h : run.lookUp x s = (.evaluated o, s')) :
    run.exhausted? s = none ∧ (run.env.evaluate x s.world).1.toObservation? x = some o ∧
      o.shape = run.shape ∧ o.isFinite = true ∧ s' = (evaluate run.env x s).2 := by
  rw [lookUp, bind_apply, get_apply] at h
  dsimp only at h
  cases hexhausted : run.exhausted? s with
  | some reason => rw [hexhausted] at h; cases h
  | none =>
    rw [hexhausted] at h
    refine ⟨rfl, ?_⟩
    have hanswer : (evaluate run.env x s).1 = (run.env.evaluate x s.world).1 := rfl
    rw [if_neg (by simp), bind_apply, hanswer] at h
    cases hshaped : run.shaped? x (run.env.evaluate x s.world).1 with
    | none => rw [hshaped] at h; cases h
    | some o' =>
      rw [hshaped] at h
      dsimp only at h
      rw [pure_apply] at h
      split_ifs at h with hfinite
      · cases h
        obtain ⟨hanswer, hshape⟩ := shaped?_eq_some hshaped
        exact ⟨hanswer, hshape, hfinite, rfl⟩
      · cases h

/-- **What a look-up can do**: nothing where a limit is reached, and one evaluation within the
budget. -/
theorem lookUp_cases (run : RunContext σ R n) (x : Vector R n) (s : Session σ R n) :
    (run.lookUp x s = (.stopped, s) ∧ ∃ reason, run.exhausted? s = some reason) ∨
      (run.exhausted? s = none ∧ (run.lookUp x s).1 ≠ .stopped ∧
        ((run.lookUp x s).2 = (evaluate run.env x s).2 ∨
          (run.lookUp x s).2 = (note .misshapen (evaluate run.env x s).2).2)) := by
  rw [lookUp, bind_apply, get_apply]
  dsimp only
  cases hexhausted : run.exhausted? s with
  | some reason => exact .inl ⟨rfl, reason, rfl⟩
  | none =>
    refine .inr ⟨rfl, ?_⟩
    rw [if_neg (by simp), bind_apply]
    cases run.shaped? x (evaluate run.env x s).1 with
    | none => exact ⟨(nomatch ·), .inr rfl⟩
    | some o =>
      dsimp only
      split_ifs
      · exact ⟨(nomatch ·), .inl rfl⟩
      · exact ⟨(nomatch ·), .inl rfl⟩

/-- Within the budget a look-up screens the answer of the problem. -/
theorem fst_lookUp (h : run.exhausted? s = none) :
    (run.lookUp x s).1 = (run.env.evaluate x s.world).1.screened run.shape x := by
  have hanswer : (evaluate run.env x s).1 = (run.env.evaluate x s.world).1 := rfl
  rw [lookUp, bind_apply, get_apply]
  dsimp only
  rw [h, if_neg (by simp), bind_apply, hanswer, Evaluation.screened, shaped?]
  cases ((run.env.evaluate x s.world).1.toObservation? x).filter
      fun o ↦ decide (o.shape = run.shape) with
  | none => rfl
  | some o =>
    dsimp only
    split_ifs <;> rfl

/-- Within the budget a look-up screens an answer, and notes it. -/
theorem exists_answer_of_lookUp {answer : Lookup R n} (h : run.lookUp x s = (answer, s')) :
    answer = .stopped ∧ s' = s ∨
      ∃ given : Evaluation R, answer = given.screened run.shape x ∧
        (s'.transcript.toList = s.transcript.toList ++ [.evaluated x given] ∨
          s'.transcript.toList = s.transcript.toList ++ [.evaluated x given, .misshapen]) := by
  have hevaluate : (evaluate run.env x s).2.transcript.toList
      = s.transcript.toList ++ [.evaluated x (run.env.evaluate x s.world).1] := Array.toList_push
  rcases run.lookUp_cases x s with ⟨hlook, -⟩ | ⟨hwithin, -, hsession⟩
  · rw [hlook] at h
    cases h
    exact .inl ⟨rfl, rfl⟩
  · have hscreened := fst_lookUp (x := x) hwithin
    rw [h] at hscreened hsession
    refine .inr ⟨_, hscreened, ?_⟩
    rcases hsession with hsession | hsession <;> dsimp only at hsession <;> rw [hsession]
    · exact .inl hevaluate
    · refine .inr ?_
      rw [toList_note, hevaluate, List.append_assoc]
      rfl

/-- A look-up draws no random numbers. -/
theorem generator_lookUp (run : RunContext σ R n) (x : Vector R n) (s : Session σ R n) :
    (run.lookUp x s).2.generator = s.generator := by
  rcases run.lookUp_cases x s with ⟨h, -⟩ | ⟨-, -, h | h⟩ <;> rw [h] <;> rfl

omit [Scalar R] in
/-- The limits that can be reached: time, and evaluations. -/
theorem exhausted?_eq_some {reason : Termination} (h : run.exhausted? s = some reason) :
    reason = .timeLimit ∨
      reason = .evaluationLimit ∧ ¬BelowCap s.evaluations run.options.budget.evaluations := by
  rw [exhausted?] at h
  split_ifs at h with htime hevaluations
  · cases h
    exact .inr ⟨rfl, hevaluations⟩
  · cases h
    exact .inl rfl

omit [Scalar R] in
theorem belowCap_of_exhausted?_eq_none (h : run.exhausted? s = none) :
    BelowCap s.evaluations run.options.budget.evaluations := by
  rw [exhausted?] at h
  split_ifs at h with _ hevaluations
  exact hevaluations

omit [Scalar R] in
/-- Where evaluations run out there is a limit, and it is reached. -/
theorem exists_limit_of_exhausted? (h : run.exhausted? s = some .evaluationLimit) :
    ∃ limit, run.options.budget.evaluations = some limit ∧ limit ≤ s.evaluations := by
  obtain hreason | ⟨-, hnot⟩ := exhausted?_eq_some h
  · cases hreason
  · cases hlimit : run.options.budget.evaluations with
    | none =>
      rw [hlimit] at hnot
      exact absurd trivial hnot
    | some limit =>
      rw [hlimit] at hnot
      exact ⟨limit, rfl, Nat.not_lt.1 hnot⟩

/-- A look-up that is stopped has met a limit. -/
theorem exhausted?_of_lookUp_stopped (h : run.lookUp x s = (.stopped, s')) :
    run.exhausted? s' = some (run.stopReason s') := by
  rcases run.lookUp_cases x s with ⟨hlook, reason, hreason⟩ | ⟨-, hne, -⟩
  · rw [hlook] at h
    cases h
    rw [stopReason, hreason]
    rfl
  · rw [h] at hne
    exact absurd rfl hne

/-- Within the budget a look-up lets through every answer of the right shape with finite entries. -/
theorem lookUp_of_toObservation? (hexhausted : run.exhausted? s = none)
    (hanswer : (run.env.evaluate x s.world).1.toObservation? x = some o)
    (hshape : o.shape = run.shape) (hfinite : o.isFinite = true) :
    run.lookUp x s = (.evaluated o, (evaluate run.env x s).2) := by
  have hevaluate : (evaluate run.env x s).1 = (run.env.evaluate x s.world).1 := rfl
  have hshaped : run.shaped? x (run.env.evaluate x s.world).1 = some o := by
    rw [shaped?, hanswer]
    exact Option.filter_some_pos (decide_eq_true hshape)
  rw [lookUp, bind_apply, get_apply]
  dsimp only
  rw [hexhausted, if_neg (by simp), bind_apply, hevaluate, hshaped]
  dsimp only
  rw [hfinite]
  rfl

end RunContext

end ExactPenalty
