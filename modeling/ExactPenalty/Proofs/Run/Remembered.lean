import Mathlib
import ExactPenalty.Proofs.FirstLeast
import ExactPenalty.Proofs.Run.Endings
import ExactPenalty.Proofs.Stationarity.Window

/-!
# What a run remembers of its iterates

The tracker and the bundle of gradients are fed one iterate at a time, by `Progress.moved` and not by what
enters the records into the history.  `Progress.Remembers` says that they keep up with it all the same: at
every stage the tracker is what the folds of its two comparisons make of all iterates so far, and the bundle
holds the samples of the most recent ones.  The iterate of the stage counts among them; its record is made
later, but in the same iteration, so at the end of a run these are the iterates of the history
(`RunContext.exists_last_remembers`).
-/

set_option autoImplicit false

namespace ExactPenalty

variable {σ R : Type} [Scalar R] {n : Nat}

/-! ## The tracker -/

namespace Tracker

/-- The objective of one iterate is below that of the other. -/
def IsLower (it than : Iterate R n) : Prop := it.value < than.value

instance instDecidableRelIsLower : DecidableRel (IsLower : Iterate R n → Iterate R n → Prop) :=
  fun _ _ ↦ inferInstanceAs (Decidable (_ < _))

/-- The tracker keeps the best of the iterates, in the sense of its two comparisons. -/
structure Remembers (t : Tracker R n) (o : StoppingOptions R) (iterates : List (Iterate R n)) : Prop where
  bestFeasible : t.bestFeasible
    = iterates.foldl (keepLess IsLower fun it ↦ it.isFeasible o.ineqTol o.eqTol) none
  mostFeasible : some t.mostFeasible = iterates.foldl (keepLess MoreFeasible fun _ ↦ true) none

variable {t : Tracker R n} {o : StoppingOptions R} {iterates : List (Iterate R n)}

theorem consider_bestFeasible (t : Tracker R n) (o : StoppingOptions R) (it : Iterate R n) :
    (t.consider o it).bestFeasible
      = keepLess IsLower (fun it ↦ it.isFeasible o.ineqTol o.eqTol) t.bestFeasible it := by
  rw [consider]
  cases t.bestFeasible <;> rfl

theorem consider_mostFeasible (t : Tracker R n) (o : StoppingOptions R) (it : Iterate R n) :
    some (t.consider o it).mostFeasible
      = keepLess MoreFeasible (fun _ ↦ true) (some t.mostFeasible) it :=
  apply_ite some _ _ _

theorem Remembers.consider (h : t.Remembers o iterates) (it : Iterate R n) :
    (t.consider o it).Remembers o (iterates ++ [it]) where
  bestFeasible := by rw [consider_bestFeasible, h.bestFeasible, List.foldl_concat]
  mostFeasible := by rw [consider_mostFeasible, h.mostFeasible, List.foldl_concat]

/-- The first iterate is compared with itself, which changes nothing. -/
theorem remembers_start (o : StoppingOptions R) (first : Iterate R n) :
    (start o first).Remembers o [first] where
  bestFeasible := consider_bestFeasible _ o first
  mostFeasible := congrArg some (ite_self first)

end Tracker

/-! ## The bundle -/

omit [Scalar R] in
theorem BundleOptions.capacity_pos (o : BundleOptions R) (n : Nat) : 0 < o.capacity n :=
  lt_of_lt_of_le zero_lt_one (le_max_right _ _)

/-! ## Stages -/

namespace Progress

/-- All iterates up to the current one. -/
def iterates (p : Progress R n) : List (Iterate R n) := p.history.toList.map (·.iterate) ++ [p.current]

/-- Tracker and bundle keep up with the iterates. -/
structure Remembers (p : Progress R n) (o : Options R) : Prop where
  tracker : p.tracker.Remembers o.stopping p.iterates
  bundle : p.bundle.Holds (o.bundle.capacity n) (p.iterates.map (·.sample))

theorem remembers_start (o : Options R) (first : Observation R n) :
    (Progress.start o first).Remembers o where
  tracker := Tracker.remembers_start o.stopping _
  bundle := by
    have hempty := GradientBundle.holds_empty (R := R) (n := n) (o.bundle.capacity n)
    rw [max_eq_left (o.bundle.capacity_pos n)] at hempty
    exact hempty.push (o.bundle.capacity_pos n) first

end Progress

namespace RunContext

variable {run : RunContext σ R n} {a b : Stage σ R n}

/-- The record of a stage joins the history in the iteration of the stage, and the next iterate becomes the
current one. -/
theorem iterates_following (move : Move R n) (μ : R) (s : Session σ R n) :
    (run.following a move μ s).progress.iterates = a.progress.iterates ++ [move.target.weighed μ] := by
  show (a.progress.history.push (run.record a)).toList.map (·.iterate) ++ _ = _
  rw [Array.toList_push, List.map_append]
  rfl

theorem remembers_iterateOnce (h : run.iterateOnce a = .inl b)
    (ha : a.progress.Remembers run.options) : b.progress.Remembers run.options := by
  obtain ⟨move, μ, s, -, -, rfl⟩ := exists_move h
  constructor
  · rw [iterates_following]
    exact ha.tracker.consider (move.target.weighed μ)
  · rw [iterates_following, List.map_append]
    exact ha.bundle.push (run.options.bundle.capacity_pos n) move.target

/-- The last stage of a run, and its history. -/
theorem exists_last_remembers {as : List (Stage σ R n)} {r : RunResult R n × Session σ R n}
    (hpath : Path run.iterateOnce (a :: as) r) (ha : a.progress.Remembers run.options) :
    ∃ b ∈ a :: as, run.iterateOnce b = .inr r ∧ b.progress.Remembers run.options ∧
      r.1.tracker = b.progress.tracker ∧
      b.progress.iterates = r.1.history.toList.map (·.iterate) := by
  have hremembers := hpath.forall_mem (P := fun a ↦ a.progress.Remembers run.options)
    (fun _ _ _ hab ha ↦ remembers_iterateOnce hab ha) ha
  obtain ⟨b, hb, hlast⟩ := hpath.exists_last
  obtain ⟨μ, reason, s, rfl⟩ := exists_ending hlast
  refine ⟨b, hb, hlast, hremembers b hb, rfl, ?_⟩
  show _ = (b.progress.history.push (run.record b)).toList.map (·.iterate)
  rw [Array.toList_push, List.map_append]
  rfl

end RunContext

end ExactPenalty
