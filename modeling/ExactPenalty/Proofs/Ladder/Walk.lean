import ExactPenalty.Proofs.Ladder
import Mathlib.Data.List.Range
import Mathlib.Logic.Function.Iterate

/-!
# The walk up the ladder

A climb that fails everywhere visits the permitted rungs one after the other, from the lowest one on:
each of them once, but the random rung as often as the options say.  `LadderOptions.positions` lists
these visits with the number of the random direction, and `Ladder.Walks` says that the failures lead a
ladder through such a list, that the ladder is exhausted by the failure at its end and not before, and
that it stays where it is from then on.

* `Ladder.IsOn` — the ladder is at a permitted position, and not exhausted.
* `Ladder.ahead` — the visits after the present one.  A failure leads to the first of them
  (`IsOn.ahead_cases`), and from there the walk is an induction on the list (`IsOn.walks`).
* `Ladder.walks_start` — the walk from the start.
-/

set_option autoImplicit false

namespace ExactPenalty

/-! ## The permitted rungs -/

/-- The rungs at consecutive positions. -/
def Level.between (first last : Nat) : List Level :=
  (List.range' first (last + 1 - first)).filterMap Level.ofIndex?

/-- The visits to a rung, with the number of the random direction, which is zero on the others. -/
def Level.visits (limit : Nat) (level : Level) : List (Level × Nat) :=
  if level = .random then (List.range' 1 limit).map (level, ·) else [(level, 0)]

namespace Level

variable {first last : Nat} {level : Level}

theorem between_eq_cons (hlevel : ofIndex? first = some level) (hle : first ≤ last) :
    between first last = level :: between (first + 1) last := by
  rw [between, show last + 1 - first = last + 1 - (first + 1) + 1 by omega, List.range'_succ,
    List.filterMap_cons_some hlevel, between]

theorem between_eq_nil (hlt : last < first) : between first last = [] := by
  rw [between, Nat.sub_eq_zero_of_le hlt]
  rfl

/-- The rungs are those at the positions, in their order. -/
theorem map_index_between (hlast : last ≤ 4) :
    (between first last).map index = List.range' first (last + 1 - first) := by
  rw [between, List.map_filterMap]
  refine (List.filterMap_congr fun i hi ↦ ?_).trans List.filterMap_some
  rw [List.mem_range'_1] at hi
  obtain ⟨level, hlevel⟩ := Ladder.exists_ofIndex? (i := i) (by omega)
  rw [hlevel]
  exact congrArg some (index_of_ofIndex? hlevel)

end Level

namespace LadderOptions

/-- The permitted range holds rungs, and nothing else, and a random direction may be tried. -/
structure IsProper (o : LadderOptions) : Prop where
  min_le_max : o.min ≤ o.max
  max_le : o.max ≤ 4
  maxRandomAttempts_ne_zero : o.maxRandomAttempts ≠ 0

/-- The lowest rung of a climb: the steering rungs are left out where steering is not engaged, unless
nothing else is permitted. -/
def lowest (o : LadderOptions) (engaged : Bool) : Nat :=
  if engaged = false ∧ 2 ≤ o.max then Nat.max o.min 2 else o.min

/-- The rung is one that a climb may visit. -/
structure Permits (o : LadderOptions) (engaged : Bool) (level : Level) : Prop where
  lowest_le : o.lowest engaged ≤ level.index
  le_max : level.index ≤ o.max

/-- The visits of a climb that fails everywhere. -/
def positions (o : LadderOptions) (engaged : Bool) : List (Level × Nat) :=
  (Level.between (o.lowest engaged) o.max).flatMap (Level.visits o.maxRandomAttempts)

theorem skipsSteering_iff {max : Nat} {engaged : Bool} :
    skipsSteering max engaged = true ↔ engaged = false ∧ 2 ≤ max := by
  simp [skipsSteering]

theorem lowest_eq (o : LadderOptions) (engaged : Bool) :
    o.lowest engaged = if skipsSteering o.max engaged then Nat.max o.min 2 else o.min := by
  simp only [lowest, skipsSteering_iff]

theorem IsProper.lowest_le_max {o : LadderOptions} (ho : o.IsProper) (engaged : Bool) :
    o.lowest engaged ≤ o.max := by
  rw [lowest]
  split_ifs with hskips
  · exact Nat.max_le.2 ⟨ho.min_le_max, hskips.2⟩
  · exact ho.min_le_max

end LadderOptions

namespace Ladder

/-! ## Positions -/

/-- The rung, and the number of the random direction. -/
def position (l : Ladder) : Level × Nat := (l.level, l.attempts)

/-- The ladder after so many failures. -/
def afterFailures (l : Ladder) (count : Nat) : Ladder := (fun l ↦ l.climb.2)^[count] l

/-- The visits after the present one. -/
def ahead (l : Ladder) : List (Level × Nat) :=
  if l.level = .random then
    (List.range' (l.attempts + 1) (l.maxRandomAttempts - l.attempts)).map (.random, ·)
  else
    (Level.between (nextIndex l.level l.max l.engaged) l.max).flatMap
      (Level.visits l.maxRandomAttempts)

/-- The ladder is at a position that the options permit, and it is not exhausted. -/
structure IsOn (o : LadderOptions) (engaged : Bool) (l : Ladder) : Prop
    extends l.IsWithin o.max where
  limit_eq : l.maxRandomAttempts = o.maxRandomAttempts
  engaged_eq : l.engaged = engaged
  lowest_le : o.lowest engaged ≤ l.level.index
  attempts_eq : l.level ≠ .random → l.attempts = 0

variable {o : LadderOptions} {engaged : Bool} {l : Ladder}

theorem IsOn.permits (h : l.IsOn o engaged) : o.Permits engaged l.level := ⟨h.lowest_le, h.index_le⟩

/-- The first rung is the lowest one. -/
theorem ofIndex?_lowest (ho : o.IsProper) (engaged : Bool) :
    Level.ofIndex? (o.lowest engaged) = some (start o engaged).level := by
  obtain ⟨level, hlevel⟩ := exists_ofIndex? ((ho.lowest_le_max engaged).trans ho.max_le)
  show _ = some (initialLevel o.min o.max engaged)
  rw [initialLevel, ← LadderOptions.lowest_eq, hlevel, Option.getD_some]

theorem isOn_start (ho : o.IsProper) (engaged : Bool) : (start o engaged).IsOn o engaged where
  toIsWithin := isWithin_start ho.min_le_max ho.max_le engaged
  limit_eq := rfl
  engaged_eq := rfl
  lowest_le := (Level.index_of_ofIndex? (ofIndex?_lowest ho engaged)).ge
  attempts_eq h := if_neg h

/-- Above a permitted rung no rung is left out. -/
theorem IsOn.nextIndex_eq (h : l.IsOn o engaged) :
    nextIndex l.level l.max l.engaged = l.level.index + 1 := by
  have hlowest := h.lowest_le
  rw [LadderOptions.lowest_eq] at hlowest
  rw [nextIndex, h.max_eq, h.engaged_eq]
  split_ifs at hlowest ⊢ with hskips
  · exact Nat.max_eq_left ((Nat.le_max_right _ _).trans (Nat.le_succ_of_le hlowest))
  · rfl

/-- On arrival at a rung, its visits and those of the rungs above it are still to come. -/
theorem IsOn.position_cons_ahead (h : l.IsOn o engaged) (ho : o.IsProper)
    (hattempts : l.attempts = if l.level = .random then 1 else 0) :
    l.position :: l.ahead
      = (Level.between l.level.index o.max).flatMap (Level.visits o.maxRandomAttempts) := by
  rw [Level.between_eq_cons (Level.ofIndex?_index l.level) h.index_le, List.flatMap_cons, position,
    hattempts, ahead, h.nextIndex_eq, h.max_eq, h.limit_eq, Level.visits]
  split_ifs with hrandom
  · obtain ⟨limit, hlimit⟩ := Nat.exists_eq_succ_of_ne_zero ho.maxRandomAttempts_ne_zero
    have hnone : Level.between (l.level.index + 1) o.max = [] :=
      Level.between_eq_nil (by rw [hrandom]; exact Nat.lt_succ_of_le ho.max_le)
    rw [hnone, hattempts, if_pos hrandom, hlimit, hrandom, List.range'_succ]
    simp
  · rfl

/-- The visits of a climb are the start and what lies ahead of it. -/
theorem positions_eq (ho : o.IsProper) (engaged : Bool) :
    o.positions engaged = (start o engaged).position :: (start o engaged).ahead := by
  rw [(isOn_start ho engaged).position_cons_ahead ho rfl, LadderOptions.positions,
    Level.index_of_ofIndex? (ofIndex?_lowest ho engaged)]

/-! ## Failures -/

/-- A failure leads to another random direction, or to the next rung, or it exhausts the ladder; and it
exhausts the ladder only where nothing lies ahead. -/
theorem IsOn.ahead_cases (h : l.IsOn o engaged) (ho : o.IsProper) :
    l.next = .exhausted ∧ l.ahead = [] ∨
      l.next ≠ .exhausted ∧ l.climb.2.IsOn o engaged ∧
        l.ahead = l.climb.2.position :: l.climb.2.ahead := by
  by_cases hrandom : l.level = .random
  · have hnext : l.next = if l.attempts < l.maxRandomAttempts then .retry (l.attempts + 1)
        else .exhausted := by rw [h.next_eq, transition, if_pos hrandom]
    rw [ahead, if_pos hrandom]
    split_ifs at hnext with hlt
    · have hclimb : l.climb.2 = { l with attempts := l.attempts + 1 } := by
        show l.after l.next = _
        rw [hnext]
        rfl
      refine .inr ⟨by simp [hnext], ?_, ?_⟩
      · rw [hclimb]
        exact { h with attempts_eq := fun hnot ↦ absurd hrandom hnot }
      · rw [hclimb, ahead, if_pos hrandom, position,
          show l.maxRandomAttempts - l.attempts = l.maxRandomAttempts - (l.attempts + 1) + 1 by omega,
          List.range'_succ, List.map_cons, hrandom]
    · refine .inl ⟨hnext, ?_⟩
      rw [Nat.sub_eq_zero_of_le (not_lt.1 hlt)]
      rfl
  · have hnext := h.next_eq
    rw [transition, if_neg hrandom, ← h.max_eq, h.nextIndex_eq] at hnext
    rw [ahead, if_neg hrandom, h.nextIndex_eq, h.max_eq, h.limit_eq]
    by_cases hle : l.level.index + 1 ≤ o.max
    · obtain ⟨level, hlevel⟩ := exists_ofIndex? (hle.trans ho.max_le)
      have hindex := Level.index_of_ofIndex? hlevel
      rw [hlevel] at hnext
      dsimp only at hnext
      rw [h.max_eq, if_pos hle] at hnext
      have hclimb : l.climb.2
          = { l with level, attempts := if level = .random then 1 else l.attempts } := by
        show l.after l.next = _
        rw [hnext]
        rfl
      have hon : l.climb.2.IsOn o engaged := by
        rw [hclimb]
        exact { h with
          index_le := hindex.trans_le hle
          lowest_le := h.lowest_le.trans (hindex ▸ Nat.le_succ _)
          attempts_eq := fun hnot ↦ (if_neg hnot).trans (h.attempts_eq hrandom) }
      refine .inr ⟨by simp [hnext], hon, ?_⟩
      rw [hon.position_cons_ahead ho (by rw [hclimb, h.attempts_eq hrandom]), hclimb, hindex]
    · refine .inl ⟨?_, ?_⟩
      · rw [hnext, h.max_eq]
        cases Level.ofIndex? (l.level.index + 1) with
        | none => rfl
        | some level => exact if_neg hle
      · rw [Level.between_eq_nil (not_le.1 hle)]
        rfl

@[simp] theorem afterFailures_zero (l : Ladder) : l.afterFailures 0 = l := rfl

@[simp] theorem afterFailures_succ (l : Ladder) (count : Nat) :
    l.afterFailures (count + 1) = l.climb.2.afterFailures count :=
  Function.iterate_succ_apply _ _ _

/-- A ladder that is exhausted stays so, at its position. -/
theorem afterFailures_of_exhausted (h : l.exhausted = true) (count : Nat) :
    l.afterFailures count = l := by
  have hclimb : l.climb.2 = l := by
    show l.after l.next = l
    rw [next, if_pos h, after, ← h]
  exact Function.iterate_fixed hclimb count

/-- **The failures of a climb lead through a list of visits**: each failure to the next visit, until the
one at the last visit exhausts the ladder; from then on all failures do, and the position stays. -/
structure Walks (l : Ladder) (visits : List (Level × Nat)) : Prop where
  /-- After so many failures the ladder is at the visit with their number. -/
  visits_eq : ∀ i < visits.length, visits[i]? = some (l.afterFailures i).position
  /-- The failure with a number, counted from zero, finds the ladder exhausted, or exhausts it. -/
  climb_eq_exhausted_iff : ∀ i, (l.afterFailures i).climb.1 = .exhausted ↔ visits.length ≤ i + 1
  exhausted_iff : ∀ i, (l.afterFailures i).exhausted = true ↔ visits.length ≤ i
  stays : ∀ i, visits.length ≤ i + 1 → some (l.afterFailures i).position = visits.getLast?

/-- The last visit: the next failure exhausts the ladder. -/
theorem walks_singleton (hexhausted : l.exhausted = false) (hnext : l.next = .exhausted) :
    l.Walks [l.position] := by
  have hlater (i : Nat) : l.afterFailures (i + 1) = { l with exhausted := true } := by
    have hclimb : l.climb.2 = { l with exhausted := true } := by
      show l.after l.next = _
      rw [hnext]
      rfl
    rw [afterFailures_succ, hclimb, afterFailures_of_exhausted rfl]
  refine ⟨fun i hi ↦ ?_, fun i ↦ ?_, fun i ↦ ?_, fun i _ ↦ ?_⟩ <;> cases i with
    | zero => simp_all [climb]
    | succ i => simp_all [climb, next, position]

/-- A failure that leads to another visit. -/
theorem Walks.cons {visit : Level × Nat} {rest : List (Level × Nat)}
    (h : l.climb.2.Walks (visit :: rest)) (hexhausted : l.exhausted = false)
    (hnext : l.next ≠ .exhausted) : l.Walks (l.position :: visit :: rest) where
  visits_eq i hi := by
    cases i with
    | zero => rfl
    | succ i => exact h.visits_eq i (Nat.lt_of_succ_lt_succ hi)
  climb_eq_exhausted_iff i := by
    cases i with
    | zero => simpa [climb] using hnext
    | succ i =>
      rw [afterFailures_succ, h.climb_eq_exhausted_iff]
      exact Nat.succ_le_succ_iff.symm
  exhausted_iff i := by
    cases i with
    | zero => simp [hexhausted]
    | succ i =>
      rw [afterFailures_succ, h.exhausted_iff]
      exact Nat.succ_le_succ_iff.symm
  stays i hi := by
    cases i with
    | zero => simp at hi
    | succ i =>
      rw [afterFailures_succ, List.getLast?_cons_cons]
      exact h.stays i (Nat.le_of_succ_le_succ hi)

/-- **The walk of a climb** from a permitted position on. -/
theorem IsOn.walks (h : l.IsOn o engaged) (ho : o.IsProper) : l.Walks (l.position :: l.ahead) := by
  induction hahead : l.ahead generalizing l with
  | nil =>
    rcases h.ahead_cases ho with ⟨hnext, -⟩ | ⟨-, -, hcons⟩
    · exact walks_singleton h.not_exhausted hnext
    · rw [hahead] at hcons
      cases hcons
  | cons visit rest ih =>
    rcases h.ahead_cases ho with ⟨-, hnil⟩ | ⟨hnext, hon, hcons⟩
    · rw [hahead] at hnil
      cases hnil
    · rw [hahead, List.cons.injEq] at hcons
      obtain ⟨rfl, rfl⟩ := hcons
      exact (ih hon rfl).cons h.not_exhausted hnext

/-- A failure that does not exhaust the ladder leads to a permitted position. -/
theorem IsOn.climb (h : l.IsOn o engaged) (ho : o.IsProper) (hnext : l.next ≠ .exhausted) :
    l.climb.2.IsOn o engaged := by
  rcases h.ahead_cases ho with ⟨hexhausted, -⟩ | ⟨-, hon, -⟩
  · exact absurd hexhausted hnext
  · exact hon

/-- **The walk from the start** visits the permitted rungs. -/
theorem walks_start (ho : o.IsProper) (engaged : Bool) :
    (start o engaged).Walks (o.positions engaged) := by
  rw [positions_eq ho]
  exact (isOn_start ho engaged).walks ho

end Ladder

/-! ## The number of visits -/

/-- Every permitted rung is visited once, but the random rung as often as the options say. -/
theorem LadderOptions.IsProper.length_positions {o : LadderOptions} (ho : o.IsProper)
    (engaged : Bool) : (o.positions engaged).length
      = o.max - o.lowest engaged + if o.max = 4 then o.maxRandomAttempts else 1 := by
  have hlowest := ho.lowest_le_max engaged
  have hmax := ho.max_le
  rw [positions]
  generalize o.lowest engaged = first at hlowest ⊢
  generalize o.max = last at hmax hlowest ⊢
  interval_cases last <;> interval_cases first <;>
    simp [Level.between, Level.visits, Level.ofIndex?, List.range'] <;> omega

end ExactPenalty
