import ExactPenalty.Ladder
import Mathlib.Order.Lattice
import Mathlib.Tactic.IntervalCases
import Mathlib.Tactic.SplitIfs

/-!
# The permitted range of the ladder

A climb starts on a permitted rung and stays within the permitted range, and nothing follows a
failure just where the highest permitted rung has failed (`Ladder.IsWithin.index_of_next_exhausted`).
Below the random rung it does not matter how often that one may be tried
(`Ladder.climb_maxRandomAttempts`).
-/

set_option autoImplicit false

namespace ExactPenalty

/-- The steering rungs are the lowest ones. -/
theorem Level.usesSteering_iff {l : Level} : l.usesSteering = true ↔ l.index ≤ 1 := by
  cases l <;> decide

theorem Level.usesSteering_eq_false_iff {l : Level} : l.usesSteering = false ↔ 2 ≤ l.index := by
  cases l <;> decide

namespace Ladder

/-- The position is in a range, and not all of it has failed. -/
structure IsWithin (max : Nat) (l : Ladder) : Prop where
  max_eq : l.max = max
  index_le : l.level.index ≤ max
  not_exhausted : l.exhausted = false

variable {max : Nat} {l : Ladder}

theorem exists_ofIndex? {i : Nat} (h : i ≤ 4) : ∃ level, Level.ofIndex? i = some level := by
  interval_cases i <;> exact ⟨_, rfl⟩

theorem isWithin_start {o : LadderOptions} (hmin : o.min ≤ o.max) (hmax : o.max ≤ 4)
    (engaged : Bool) : (Ladder.start o engaged).IsWithin o.max := by
  refine ⟨rfl, ?_, rfl⟩
  show (initialLevel o.min o.max engaged).index ≤ o.max
  have hle : (if skipsSteering o.max engaged then Nat.max o.min 2 else o.min) ≤ o.max := by
    split_ifs with hskips
    · rw [skipsSteering, Bool.and_eq_true, decide_eq_true_eq] at hskips
      exact Nat.max_le.2 ⟨hmin, hskips.2⟩
    · exact hmin
  obtain ⟨level, hlevel⟩ := exists_ofIndex? (hle.trans hmax)
  rw [initialLevel, hlevel]
  exact (Level.index_of_ofIndex? hlevel).trans_le hle

/-- An escalation stays in the range. -/
theorem index_le_of_transition {current level : Level} {attempts max maxRandom : Nat}
    {engaged : Bool} (h : transition current attempts max maxRandom engaged = .escalated level) :
    level.index ≤ max := by
  rw [transition] at h
  by_cases hrandom : current = .random
  · rw [if_pos hrandom] at h
    split_ifs at h
  · rw [if_neg hrandom] at h
    cases hlevel : Level.ofIndex? (nextIndex current max engaged) with
    | none => rw [hlevel] at h; cases h
    | some next =>
      rw [hlevel] at h
      dsimp only at h
      split_ifs at h with hle
      cases h
      exact (Level.index_of_ofIndex? hlevel).trans_le hle

theorem IsWithin.next_eq (h : l.IsWithin max) :
    l.next = transition l.level l.attempts max l.maxRandomAttempts l.engaged := by
  rw [next, h.not_exhausted, h.max_eq]
  exact if_neg Bool.false_ne_true

/-- A failure that does not exhaust the ladder leads to a rung in the range. -/
theorem IsWithin.climb (h : l.IsWithin max) (hnext : l.next ≠ .exhausted) :
    (l.climb).2.IsWithin max := by
  have heq := h.next_eq
  show (l.after l.next).IsWithin max
  cases ht : l.next with
  | exhausted => exact absurd ht hnext
  | retry attempt => exact ⟨h.max_eq, h.index_le, h.not_exhausted⟩
  | escalated level =>
    exact ⟨h.max_eq, index_le_of_transition (heq.symm.trans ht), h.not_exhausted⟩

/-- **Nothing follows a failure only on the highest permitted rung.** -/
theorem IsWithin.index_of_next_exhausted (h : l.IsWithin max) (hmax : max ≤ 4)
    (hnext : l.next = .exhausted) : l.level.index = max := by
  have heq := h.next_eq
  refine le_antisymm h.index_le (not_lt.1 fun hlt ↦ ?_)
  have hle : nextIndex l.level max l.engaged ≤ max := by
    rw [nextIndex]
    split_ifs with hskips
    · rw [skipsSteering, Bool.and_eq_true, decide_eq_true_eq] at hskips
      exact Nat.max_le.2 ⟨hlt, hskips.2⟩
    · exact hlt
  obtain ⟨level, hlevel⟩ := exists_ofIndex? (hle.trans hmax)
  have hrandom : l.level ≠ .random := by
    rintro hrandom
    rw [hrandom] at hlt
    exact absurd (hlt.trans_le hmax) (lt_irrefl 4)
  rw [hnext, transition, if_neg hrandom, hlevel] at heq
  dsimp only at heq
  rw [if_pos hle] at heq
  cases heq

/-- The highest permitted rung is a plain one, so nothing follows a failure only on that one. -/
theorem IsWithin.plain_of_next_exhausted (h : l.IsWithin max) (hmax : max = 2 ∨ max = 3)
    (hnext : l.next = .exhausted) : l.level = .quasiNewton ∨ l.level = .steepestDescent := by
  have hlevel := Level.ofIndex?_index l.level
  rw [h.index_of_next_exhausted (by omega) hnext] at hlevel
  rcases hmax with rfl | rfl
  · exact .inl (Option.some.inj hlevel).symm
  · exact .inr (Option.some.inj hlevel).symm

theorem IsWithin.ne_random (h : l.IsWithin max) (hmax : max < 4) : l.level ≠ .random := by
  intro hlevel
  have hle := h.index_le
  rw [hlevel] at hle
  exact absurd (hle.trans_lt hmax) (lt_irrefl 4)

/-! ## The number of random directions -/

theorem next_eq_transition (hnext : l.next ≠ .exhausted) :
    l.next = transition l.level l.attempts l.max l.maxRandomAttempts l.engaged := by
  rw [next] at hnext ⊢
  split_ifs at hnext ⊢ with hexhausted
  · exact absurd rfl hnext
  · rfl

/-- A failure that does not exhaust the ladder leads to another random direction, within their limit,
or from a lower rung to a higher one. -/
theorem climb_cases (hnext : l.next ≠ .exhausted) :
    l.level = .random ∧ l.attempts < l.maxRandomAttempts ∧
        l.climb.2 = { l with attempts := l.attempts + 1 } ∨
      l.level ≠ .random ∧ ∃ level,
        l.climb.2 = { l with level, attempts := if level = .random then 1 else l.attempts } := by
  have htransition := next_eq_transition hnext
  show _ ∧ _ ∧ l.after l.next = _ ∨ _ ∧ ∃ level, l.after l.next = _
  cases hn : l.next with
  | exhausted => exact absurd hn hnext
  | retry attempt =>
    obtain ⟨hlevel, hlt, rfl⟩ := retry_of_transition (htransition.symm.trans hn)
    exact .inl ⟨hlevel, hlt, rfl⟩
  | escalated level =>
    refine .inr ⟨fun hlevel ↦ ?_, level, rfl⟩
    have hlt := index_lt_of_transition (htransition.symm.trans hn)
    rw [hlevel] at hlt
    exact absurd (hlt.trans_le level.index_le) (lt_irrefl 4)

/-- A failure leads to no lower rung. -/
theorem index_le_climb (hnext : l.next ≠ .exhausted) : l.level.index ≤ l.climb.2.level.index := by
  have htransition := next_eq_transition hnext
  show _ ≤ (l.after l.next).level.index
  cases hn : l.next with
  | exhausted => exact absurd hn hnext
  | retry attempt => exact le_rfl
  | escalated level => exact (index_lt_of_transition (htransition.symm.trans hn)).le

theorem next_maxRandomAttempts (hlevel : l.level ≠ .random) (limit : Nat) :
    { l with maxRandomAttempts := limit }.next = l.next := by
  rw [next, next, transition, transition]
  simp only [if_neg hlevel]

/-- A climb below the random rung keeps the number of random directions that are allowed, and does not
depend on it. -/
theorem climb_maxRandomAttempts (hlevel : l.level ≠ .random) (limit : Nat) :
    { l with maxRandomAttempts := limit }.climb.2
      = { l.climb.2 with maxRandomAttempts := limit } := by
  show Ladder.after _ _ = { l.after l.next with maxRandomAttempts := limit }
  rw [next_maxRandomAttempts hlevel]
  cases l.next <;> rfl

end Ladder

end ExactPenalty
