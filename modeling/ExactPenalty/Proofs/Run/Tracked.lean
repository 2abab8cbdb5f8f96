import Mathlib
import ExactPenalty.Proofs.Run.Answers
import ExactPenalty.Proofs.Run.Decrease
import ExactPenalty.Proofs.Run.Remembered

/-!
# The tracked iterates are the extremal ones

A run reports the feasible iterate with the lowest objective and the iterate with the smallest violation.
`tracked_are_extremal` says that these are iterates of the history, with the penalty parameter they were
recorded with, and that each is the earliest of those that are best.

This is a matter of comparisons only, so it holds in floating point as well (`Scalar.IsOrdered`).  Both
sides of every comparison are numbers: an iterate was let through only if its objective is finite, and the
largest violation ignores a constraint value that is not a number (`Observation.isNaN_tv`).
-/

set_option autoImplicit false

namespace ExactPenalty

open Scalar

variable {σ R : Type} [Scalar R] {n : Nat}

/-! ## The values that are compared -/

theorem isNaN_foldl_larger (laws : IsOrdered R) (l : List R) {acc : R} (hacc : isNaN acc = false) :
    isNaN (l.foldl larger acc) = false := by
  induction l generalizing acc with
  | nil => exact hacc
  | cons c l ih => exact ih (laws.isNaN_larger hacc)

/-- The largest violation is a number, whatever the constraint values are. -/
theorem Observation.isNaN_tv (laws : IsOrdered R) (o : Observation R n) : isNaN o.tv = false :=
  laws.isNaN_larger (isNaN_foldl_larger laws _ laws.isNaN_zero)

theorem Observation.isNaN_value (laws : IsOrdered R) {o : Observation R n} (h : o.isFinite = true) :
    isNaN o.value = false := by
  simp only [isFinite, Bool.and_eq_true] at h
  exact laws.isNaN_of_isFinite h.1.1.1

/-! ## Records -/

omit [Scalar R] in
/-- What a comparison keeps of the iterates of a history is the iterate of a record. -/
theorem exists_record_of_foldl {lt : Iterate R n → Iterate R n → Prop} [DecidableRel lt]
    {p : Iterate R n → Bool} {S : Set (Iterate R n)} {history : Array (IterationRecord R n)}
    {it : Iterate R n} (horder : OrdersOn lt S) (hS : ∀ record ∈ history, record.iterate ∈ S)
    (h : (history.toList.map (·.iterate)).foldl (keepLess lt p) none = some it) :
    ∃ (k : Nat) (record : IterationRecord R n), history[k]? = some record ∧ record.iterate = it ∧
      p it = true ∧ it ∈ S ∧
      ∀ (j : Nat) (other : IterationRecord R n), history[j]? = some other → p other.iterate = true →
        other.iterate ∈ S ∧ ¬ lt other.iterate it ∧ (j < k → lt it other.iterate) := by
  have hmem : ∀ b ∈ history.toList.map (·.iterate), p b = true → b ∈ S := by
    intro b hb _
    obtain ⟨record, hrecord, rfl⟩ := List.mem_map.1 hb
    exact hS record (Array.mem_toList_iff.1 hrecord)
  have hfirst : IsFirstLeast lt p it (history.toList.map (·.iterate)) :=
    isFirstLeast_of_foldl horder hmem h
  obtain ⟨k, hk, hleast⟩ := hfirst.exists_getElem? horder hmem
  rw [List.getElem?_map, Array.getElem?_toList, Option.map_eq_some_iff] at hk
  obtain ⟨record, hrecord, rfl⟩ := hk
  refine ⟨k, record, hrecord, rfl, hfirst.1, hS record (Array.mem_of_getElem? hrecord), ?_⟩
  intro j other hj hcount
  refine ⟨hS other (Array.mem_of_getElem? hj), hleast j other.iterate ?_ hcount⟩
  rw [List.getElem?_map, Array.getElem?_toList, hj, Option.map_some]

/-! ## Whole runs -/

section Runs

variable {env : Environment σ R n} {options : Options R} {x₀ : Vector R n} {world : σ}
    {r : RunResult R n} {s : Session σ R n}

/-- The objective of every recorded iterate is a number. -/
theorem isNaN_value_of_mem_history (laws : IsOrdered R)
    (hrun : minimize env options x₀ world = (.ok r, s)) :
    ∀ record ∈ r.history, isNaN record.iterate.value = false := by
  obtain ⟨-, -, first, as, hfirst, hfinite, rfl, hpath⟩ := minimize_eq_ok hrun
  have hanswered := RunContext.answered_of_path hpath (Progress.isFresh_start options first)
    (RunContext.isAnswered_initial env options world hfirst hfinite)
  intro record hrecord
  have hmem : record.iterate ∈ r.iterates :=
    List.mem_append_left _ (List.mem_map_of_mem (Array.mem_toList_iff.2 hrecord))
  obtain ⟨-, -, -, -, hentries⟩ := hanswered record.iterate hmem
  exact Observation.isNaN_value laws hentries

/-- What a run tracks is what its two comparisons keep of the iterates of its history. -/
theorem tracker_remembers (hrun : minimize env options x₀ world = (.ok r, s)) :
    r.tracker.Remembers options.stopping (r.history.toList.map (·.iterate)) := by
  obtain ⟨-, -, first, as, -, -, -, hpath⟩ := minimize_eq_ok hrun
  obtain ⟨b, -, -, hremembers, htracker, hiterates⟩ :=
    RunContext.exists_last_remembers hpath (Progress.remembers_start options first)
  have htracked := hremembers.tracker
  rwa [← htracker, hiterates] at htracked

/-- **The tracked iterates are the extremal ones of the history.**  There is no best feasible iterate
exactly where no record is feasible.  Otherwise it is the iterate of a record, with all its fields, no
feasible record has a lower objective, and every earlier one has a higher one.  The most feasible iterate is
that of a record, no record comes before it in the lexicographic order of violation and objective, and every
earlier record comes after it. -/
theorem tracked_are_extremal (laws : IsOrdered R)
    (hrun : minimize env options x₀ world = (.ok r, s)) :
    (r.tracker.bestFeasible = none ↔ ∀ record ∈ r.history,
      record.iterate.isFeasible options.stopping.ineqTol options.stopping.eqTol = false) ∧
    (∀ best, r.tracker.bestFeasible = some best →
      ∃ (k : Nat) (record : IterationRecord R n), r.history[k]? = some record ∧ record.iterate = best ∧
        best.isFeasible options.stopping.ineqTol options.stopping.eqTol = true ∧
        ∀ (j : Nat) (other : IterationRecord R n), r.history[j]? = some other →
          other.iterate.isFeasible options.stopping.ineqTol options.stopping.eqTol = true →
          best.value ≤ other.iterate.value ∧ (j < k → best.value < other.iterate.value)) ∧
    ∃ (k : Nat) (record : IterationRecord R n), r.history[k]? = some record ∧
      record.iterate = r.tracker.mostFeasible ∧
      ∀ (j : Nat) (other : IterationRecord R n), r.history[j]? = some other →
        (r.tracker.mostFeasible.tv < other.iterate.tv ∨
          Same r.tracker.mostFeasible.tv other.iterate.tv ∧
            r.tracker.mostFeasible.value ≤ other.iterate.value) ∧
        (j < k → r.tracker.mostFeasible.tv < other.iterate.tv ∨
          Same r.tracker.mostFeasible.tv other.iterate.tv ∧
            r.tracker.mostFeasible.value < other.iterate.value) := by
  have hnumbers := isNaN_value_of_mem_history laws hrun
  obtain ⟨hbest, hmost⟩ := tracker_remembers hrun
  refine ⟨?_, fun best hsome ↦ ?_, ?_⟩
  · rw [hbest, foldl_keepLess_eq_none_iff, List.forall_mem_map]
    exact forall_congr' fun record ↦ imp_congr_left Array.mem_toList_iff
  · obtain ⟨k, record, hk, hrecord, hfeasible, hnumber, hleast⟩ := exists_record_of_foldl
      (laws.ordersOn fun it : Iterate R n ↦ it.value) hnumbers (hbest.symm.trans hsome)
    refine ⟨k, record, hk, hrecord, hfeasible, fun j other hj hother ↦ ?_⟩
    obtain ⟨hnumber', hnot, hearlier⟩ := hleast j other hj hother
    exact ⟨(laws.not_lt_iff hnumber' hnumber).1 hnot, hearlier⟩
  · have hpairs : ∀ record ∈ r.history,
        isNaN record.iterate.tv = false ∧ isNaN record.iterate.value = false :=
      fun record hrecord ↦ ⟨record.iterate.isNaN_tv laws, hnumbers record hrecord⟩
    have horder : OrdersOn Tracker.MoreFeasible
        {it : Iterate R n | isNaN it.tv = false ∧ isNaN it.value = false} := laws.ordersOn_lexLess
    obtain ⟨k, record, hk, hrecord, -, hnumber, hleast⟩ :=
      exists_record_of_foldl horder hpairs hmost.symm
    refine ⟨k, record, hk, hrecord, fun j other hj ↦ ?_⟩
    obtain ⟨hnumber', hnot, hearlier⟩ := hleast j other hj rfl
    exact ⟨lexLe_of_not_lexLess laws ⟨hnumber.1, hnumber'.1⟩ ⟨hnumber.2, hnumber'.2⟩ hnot, hearlier⟩

end Runs

/-- A run down the parabola has a best feasible iterate, at least as good as the one it starts from. -/
theorem tracked_are_extremal_parabola :
    IsOrdered ℝ ∧ ∃ r s, minimize parabola .standard (.replicate 1 1) () = (.ok r, s) ∧
      2 ≤ r.history.toList.length ∧
      (∃ best, r.tracker.bestFeasible = some best ∧
        best.value ≤ (parabolaAt (.replicate 1 1)).value) ∧
      ∃ record ∈ r.history, record.iterate = r.tracker.mostFeasible := by
  obtain ⟨r, s, hrun, hlength⟩ := exists_minimize_parabola_two_le
  obtain ⟨hoptions, -, first, as, hfirst, -, -, hpath⟩ := minimize_eq_ok hrun
  rw [toObservation?_parabola] at hfirst
  cases hfirst
  have hrecord := RunContext.first_record hpath rfl
  have hfeasible : (parabolaAt (.replicate 1 1)).isFeasible
      (Options.standard : Options ℝ).stopping.ineqTol (Options.standard : Options ℝ).stopping.eqTol
        = true :=
    Observation.isFeasible_of_shape_eq_zero rfl hoptions.ineqTol_nonneg hoptions.eqTol_nonneg
  obtain ⟨hnone, hbest, k, record, hk, hmost, -⟩ := tracked_are_extremal isOrdered_real hrun
  refine ⟨isOrdered_real, r, s, hrun, hlength, ?_, record, Array.mem_of_getElem? hk, hmost⟩
  cases hsome : r.tracker.bestFeasible with
  | none =>
    have hinfeasible := hnone.1 hsome _ (Array.mem_of_getElem? hrecord)
    exact absurd (hfeasible.symm.trans hinfeasible) (by decide)
  | some best =>
    obtain ⟨_, _, -, -, -, hleast⟩ := hbest best hsome
    exact ⟨best, rfl, (hleast 0 _ hrecord hfeasible).1⟩

end ExactPenalty
