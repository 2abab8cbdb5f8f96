import Mathlib
import ExactPenalty.Proofs.Stationarity

/-!
# The window of the bundle

A bundle is a window that slides over the iterates pushed into it.  What is kept of an iterate does not depend
on the penalty parameter it was weighed with, so a measure weighs all of them with the parameter of today.

* `GradientBundle.Holds` — the bundle holds the most recent of some samples; pushing another one keeps to it
  (`Holds.push`), so any sequence of pushes does (`Holds.pushAll`).
* `bundle_is_sliding_window` — what is measured after a sequence of pushes.
-/

set_option autoImplicit false

namespace ExactPenalty

open Linear

variable {σ R : Type} [Scalar R] {n : Nat}

namespace GradientBundle

/-! ## One push -/

/-- The bundle holds the most recent of the samples. -/
structure Holds (b : GradientBundle R n) (capacity : Nat) (samples : List (GradientSample R n)) :
    Prop where
  capacity_eq : b.capacity = capacity
  samples_eq : b.samples = samples.rtake capacity

/-- What is kept of the most recent elements makes room for one more. -/
theorem keep_rtake {α : Type} (l : List α) (k : Nat) :
    (if (l.rtake (k + 1)).length = k + 1 then (l.rtake (k + 1)).tail else l.rtake (k + 1))
      = l.rtake k := by
  simp only [List.rtake, List.length_drop, List.tail_drop]
  split_ifs with hfull
  · congr 1
    omega
  · congr 1
    omega

theorem Holds.push {b : GradientBundle R n} {capacity : Nat} {samples : List (GradientSample R n)}
    (h : b.Holds capacity samples) (hpos : 0 < capacity) (o : Observation R n) :
    (b.push o).Holds capacity (samples ++ [o.sample]) where
  capacity_eq := h.capacity_eq
  samples_eq := by
    obtain ⟨k, rfl⟩ := Nat.exists_eq_add_one_of_ne_zero hpos.ne'
    rw [List.rtake_concat_succ, GradientBundle.push, h.capacity_eq, h.samples_eq]
    dsimp only
    rw [keep_rtake]

omit [Scalar R] in
theorem holds_empty (capacity : Nat) :
    (GradientBundle.empty capacity : GradientBundle R n).Holds (max capacity 1) [] where
  capacity_eq := rfl
  samples_eq := (List.rtake_nil _).symm

/-! ## Sequences of pushes -/

/-- The iterates pushed one after the other. -/
def pushAll (b : GradientBundle R n) (its : List (Iterate R n)) : GradientBundle R n :=
  its.foldl (fun b it ↦ b.push it.toObservation) b

theorem Holds.pushAll {b : GradientBundle R n} {capacity : Nat} {samples : List (GradientSample R n)}
    (h : b.Holds capacity samples) (hpos : 0 < capacity) (its : List (Iterate R n)) :
    (b.pushAll its).Holds capacity (samples ++ its.map (·.sample)) := by
  induction its generalizing b samples with
  | nil => rwa [List.map_nil, List.append_nil]
  | cons it its ih =>
    rw [List.map_cons, List.append_cons]
    exact ih (h.push hpos it.toObservation)

/-- **After a sequence of pushes** the samples are those of the most recent iterates. -/
theorem samples_pushAll_empty (capacity : Nat) (its : List (Iterate R n)) :
    ((empty capacity).pushAll its).samples
      = (its.rtake (min (max capacity 1) its.length)).map (·.sample) := by
  have hpos : 0 < max capacity 1 := lt_max_of_lt_right one_pos
  rw [((holds_empty capacity).pushAll hpos its).samples_eq, List.nil_append]
  simp only [List.rtake, List.length_map, List.map_drop]
  congr 1
  omega

/-- A bundle with room for all iterates keeps all of them. -/
theorem samples_pushAll_empty_of_le {capacity : Nat} {its : List (Iterate R n)}
    (h : its.length ≤ max capacity 1) : ((empty capacity).pushAll its).samples = its.map (·.sample) := by
  rw [samples_pushAll_empty, min_eq_right h, List.rtake, Nat.sub_self, List.drop_zero]

/-- The sample of an iterate does not depend on its penalty parameter. -/
theorem samples_pushAll_of_reweighed {capacity : Nat} {its its' : List (Iterate R n)}
    (h : List.Forall₂ (fun it it' ↦ ∃ μ, it' = it.reweighed μ) its its') :
    ((empty capacity).pushAll its).samples = ((empty capacity).pushAll its').samples := by
  have hsamples : its.map (·.sample) = its'.map (·.sample) := by
    induction h with
    | nil => rfl
    | cons h _ ih =>
      obtain ⟨μ, rfl⟩ := h
      rw [List.map_cons, List.map_cons, ih]
      rfl
  have hpos : 0 < max capacity 1 := lt_max_of_lt_right one_pos
  rw [((holds_empty capacity).pushAll hpos its).samples_eq,
    ((holds_empty capacity).pushAll hpos its').samples_eq, hsamples]

/-! ## The measure -/

/-- The measure looks at the samples only. -/
theorem measure_congr {b b' : GradientBundle R n} (h : b.samples = b'.samples) (solve : QpService σ R)
    (it : Iterate R n) (metric : Mat R n n) (radius : Extended R) :
    b.measure solve it metric radius = b'.measure solve it metric radius := by
  rw [measure, measure, nearby, nearby, h]

/-- The gradients that are compared are those of the window, all weighed like the iterate. -/
theorem nearby_pushAll_empty (capacity : Nat) (its : List (Iterate ℝ n)) (it : Iterate ℝ n)
    (radius : Extended ℝ) : ((empty capacity).pushAll its).nearby it radius
      = (its.rtake (min (max capacity 1) its.length)).filterMap fun past ↦
        if radius.AtLeast (norm₂ (past.point - it.point)) ∧ 0 < norm₂ (past.point - it.point)
        then some (past.reweighed it.mu).penaltyGrad else none := by
  rw [nearby, samples_pushAll_empty, List.filterMap_map]
  refine congrFun (congrArg List.filterMap (funext fun past ↦ ?_)) _
  rw [Function.comp_apply, Observation.penaltyGradAt_sample]
  rfl

end GradientBundle

/-- **The bundle is a sliding window.**  Push any iterates into an empty bundle.  At any time it holds as many
samples as have been pushed, but no more than its capacity, which is at least one.  What is measured then —
anywhere, in any metric, with any solver — is what a bundle measures into which only so many of the last
iterates have been pushed, if it has room for them; and it does not matter which penalty parameters the
iterates carried.  For the gradients that take part are those of the last iterates, all weighed with the
penalty parameter of the iterate at which they are compared. -/
theorem bundle_is_sliding_window (capacity : Nat) (its : List (Iterate ℝ n)) :
    (∀ pushed, pushed <+: its →
      ((GradientBundle.empty capacity).pushAll pushed).samples.length = min (max capacity 1) pushed.length) ∧
    (∀ {σ : Type} (solve : QpService σ ℝ) (it : Iterate ℝ n) (metric : Mat ℝ n n) (radius : Extended ℝ),
      (∀ capacity', min (max capacity 1) its.length ≤ max capacity' 1 →
        ((GradientBundle.empty capacity).pushAll its).measure solve it metric radius
          = ((GradientBundle.empty capacity').pushAll
              (its.rtake (min (max capacity 1) its.length))).measure solve it metric radius) ∧
      ∀ its', List.Forall₂ (fun it it' ↦ ∃ μ, it' = it.reweighed μ) its its' →
        ((GradientBundle.empty capacity).pushAll its).measure solve it metric radius
          = ((GradientBundle.empty capacity).pushAll its').measure solve it metric radius) ∧
    ∀ (it : Iterate ℝ n) (radius : Extended ℝ),
      ((GradientBundle.empty capacity).pushAll its).nearby it radius
        = (its.rtake (min (max capacity 1) its.length)).filterMap fun past ↦
          if radius.AtLeast (norm₂ (past.point - it.point)) ∧ 0 < norm₂ (past.point - it.point)
          then some (past.reweighed it.mu).penaltyGrad else none := by
  have hlength (its : List (Iterate ℝ n)) :
      (its.rtake (min (max capacity 1) its.length)).length = min (max capacity 1) its.length := by
    rw [List.rtake, List.length_drop]
    omega
  refine ⟨fun pushed _ ↦ ?_, fun solve it metric radius ↦ ⟨fun capacity' hroom ↦ ?_, fun its' h ↦ ?_⟩,
    GradientBundle.nearby_pushAll_empty capacity its⟩
  · rw [GradientBundle.samples_pushAll_empty, List.length_map, hlength]
  · refine GradientBundle.measure_congr ?_ solve it metric radius
    rw [GradientBundle.samples_pushAll_empty,
      GradientBundle.samples_pushAll_empty_of_le ((hlength its).trans_le hroom)]
  · exact GradientBundle.measure_congr (GradientBundle.samples_pushAll_of_reweighed h) solve it metric radius

/-- The squares on the line. -/
noncomputable def squareIterate (μ x : ℝ) : Iterate ℝ 1 where
  point := .replicate 1 x
  value := x * x
  grad := .replicate 1 (x + x)
  ineq := []
  eq := []
  mu := μ

/-- A bundle with room for two forgets the first of three iterates, and the penalty parameters of all. -/
theorem bundle_is_sliding_window_squares :
    ((GradientBundle.empty 2).pushAll ([1, 2, 3].map (squareIterate 1))).samples.length = 2 ∧
    ((GradientBundle.empty 2).pushAll ([1, 2, 3].map (squareIterate 1))).measure QpService.exact
        (squareIterate 1 0) (.identity ℝ 1) (.finite 5)
      = ((GradientBundle.empty 7).pushAll ([2, 3].map (squareIterate 1))).measure QpService.exact
        (squareIterate 1 0) (.identity ℝ 1) (.finite 5) ∧
    ((GradientBundle.empty 2).pushAll ([1, 2, 3].map (squareIterate 1))).measure QpService.exact
        (squareIterate 1 0) (.identity ℝ 1) (.finite 5)
      = ((GradientBundle.empty 2).pushAll ([1, 2, 3].map (squareIterate (1 / 2)))).measure QpService.exact
        (squareIterate 1 0) (.identity ℝ 1) (.finite 5) := by
  obtain ⟨hlength, hwindow, -⟩ := bundle_is_sliding_window 2 ([1, 2, 3].map (squareIterate 1))
  obtain ⟨hlast, hreweighed⟩ := hwindow QpService.exact (squareIterate 1 0) (.identity ℝ 1) (.finite 5)
  refine ⟨hlength _ List.prefix_rfl, hlast 7 (by decide), hreweighed _ ?_⟩
  exact .cons ⟨1 / 2, rfl⟩ (.cons ⟨1 / 2, rfl⟩ (.cons ⟨1 / 2, rfl⟩ .nil))

end ExactPenalty
