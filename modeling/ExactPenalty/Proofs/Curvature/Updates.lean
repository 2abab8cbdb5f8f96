import Mathlib
import ExactPenalty.Curvature
import ExactPenalty.Proofs.Linear

/-!
# Updates in rounded arithmetic

Nothing is assumed here of the scalars: a product may overflow, a quotient may be no number, and a
correction that ends so is thrown away after it has been computed.  What the matrix can rely on all the
same is that an update is all or nothing.  Either the pair is used, and the next matrix is the correction
of the stored one, or the pair is refused, and all that is left of it is that it was counted
(`Curvature.update_cases`).  The matrix is symmetric because both halves of it are given the same numbers,
and finite because it is looked at before it is stored.

The pair that rescales the first matrix is the first one that is used, not the first one that is offered.
So a sequence of pairs may be thinned to those that were used: they make the same matrix by themselves,
and each of them is used again (`Curvature.fed_used`).

## What is here

* `Curvature.correction` — what a pair makes of a matrix, apart from whether it is stored.
* `Curvature.fed`, `Curvature.used` — a sequence of pairs, and those of them that were used.
* `updates_are_atomic` — every call of a sequence, for all scalars.
-/

set_option autoImplicit false

namespace ExactPenalty

open Scalar Linear

theorem SecantUpdate.wasApplied_iff {R : Type} {u : SecantUpdate R} :
    u.wasApplied = true ↔ u = .applied ∨ u = .damped := by
  cases u <;> simp [wasApplied]

variable {R : Type} [Scalar R] {n : Nat}

/-! ## Symmetric and finite matrices -/

namespace Mat

/-- Averaging with the transpose gives both halves the same numbers. -/
theorem symmetrized_comm (a : Mat R n n) (i j : Fin n) : a.symmetrized i j = a.symmetrized j i := by
  simp only [symmetrized, ofFn, get_ofFn]
  rcases lt_trichotomy i j with h | rfl | h
  · rw [if_pos h, if_neg h.not_gt, if_pos h]
  · rfl
  · rw [if_neg h.not_gt, if_pos h, if_pos h]

theorem identity_comm (i j : Fin n) : identity R n i j = identity R n j i := by
  simp only [identity, ofFn, get_ofFn, eq_comm]

theorem isFinite_iff {a : Mat R n n} : a.isFinite = true ↔ ∀ i j, Scalar.isFinite (a i j) = true := by
  simp only [isFinite, allFinite, Vector.all_eq_true]
  exact ⟨fun h i j ↦ h i i.2 j j.2, fun h i hi j hj ↦ h ⟨i, hi⟩ ⟨j, hj⟩⟩

theorem isFinite_identity (h0 : Scalar.isFinite (0 : R) = true) (h1 : Scalar.isFinite (1 : R) = true) :
    (identity R n).isFinite = true := by
  rw [isFinite_iff]
  intro i j
  rw [identity, ofFn, get_ofFn, get_ofFn]
  split_ifs
  · exact h1
  · exact h0

end Mat

namespace Curvature

/-! ## One update -/

/-- What a pair makes of the matrix `h`: its correction by the displacement, or by the damped one if the
curvature of the pair is below the fraction `damping` of the predicted one. -/
def correction (damping : R) (h : Mat R n n) (s y : Vector R n) : Mat R n n :=
  let hy := h.mulVec y
  let yhy := dot y hy
  if 0 < damping ∧ dot s y < damping * yhy then
    let step := dampedStep damping s hy (dot s y) yhy
    corrected h step hy (dot step y) yhy
  else corrected h s hy (dot s y) yhy

theorem correction_comm (damping : R) (h : Mat R n n) (s y : Vector R n) (i j : Fin n) :
    correction damping h s y i j = correction damping h s y j i := by
  simp only [correction]
  split_ifs
  · exact Mat.symmetrized_comm _ i j
  · exact Mat.symmetrized_comm _ i j

section Update

variable (c : Curvature R n) (s y : Vector R n)

/-- A pair is used if it is finite, its curvature is safely positive and its correction is finite. -/
theorem update_eq : c.update s y =
    if allFinite s && allFinite y then
      if epsilon * (norm₂ s * norm₂ y) < dot s y then
        if (correction c.damping (c.base s y) s y).isFinite then
          (if 0 < c.damping ∧ dot s y < c.damping * dot y ((c.base s y).mulVec y) then .damped
            else .applied,
            { c with matrix := correction c.damping (c.base s y) s y, applied := c.applied + 1 })
        else (.skippedNonFinite, c.skip)
      else (.skippedCurvature (dot s y), c.skip)
    else (.skippedNonFinite, c.skip) := by
  by_cases hweak : 0 < c.damping ∧ dot s y < c.damping * dot y ((c.base s y).mulVec y)
  · have hd := decide_eq_true hweak
    simp only [update, correction, hd, if_true, if_pos hweak]
  · have hd := decide_eq_false hweak
    simp only [update, correction, hd, Bool.false_eq_true, if_false, if_neg hweak]

/-- **An update is all or nothing.**  A pair that is used replaces the matrix by its correction, which is
finite; a pair that is refused is counted. -/
theorem update_cases :
    ((c.update s y).1.wasApplied = true ∧ (correction c.damping (c.base s y) s y).isFinite = true ∧
      (c.update s y).2 = { c with
        matrix := correction c.damping (c.base s y) s y, applied := c.applied + 1 }) ∨
    ((c.update s y).1.wasApplied = false ∧ (c.update s y).2 = c.skip) := by
  rw [update_eq]
  split_ifs with _ _ hnext
  · exact .inl ⟨rfl, hnext, rfl⟩
  · exact .inl ⟨rfl, hnext, rfl⟩
  · exact .inr ⟨rfl, rfl⟩
  · exact .inr ⟨rfl, rfl⟩
  · exact .inr ⟨rfl, rfl⟩

end Update

/-- The matrix is symmetric and has no entry that is not finite. -/
structure IsStorable (c : Curvature R n) : Prop where
  comm : ∀ i j, c.matrix i j = c.matrix j i
  isFinite : c.matrix.isFinite = true

theorem isStorable_initial (h0 : isFinite (0 : R) = true) (h1 : isFinite (1 : R) = true)
    (o : CurvatureOptions R) : (initial n o).IsStorable :=
  ⟨Mat.identity_comm, Mat.isFinite_identity h0 h1⟩

theorem IsStorable.update {c : Curvature R n} (hc : c.IsStorable) (s y : Vector R n) :
    (c.update s y).2.IsStorable := by
  obtain ⟨-, hfinite, hnext⟩ | ⟨-, hnext⟩ := c.update_cases s y
  · rw [hnext]
    exact ⟨correction_comm _ _ _ _, hfinite⟩
  · rw [hnext]
    exact ⟨hc.comm, hc.isFinite⟩

/-! ## Many updates -/

/-- The matrix after a sequence of pairs. -/
def fed (c : Curvature R n) (pairs : List (Vector R n × Vector R n)) : Curvature R n :=
  pairs.foldl (fun c p ↦ (c.update p.1 p.2).2) c

theorem fed_cons (c : Curvature R n) (p : Vector R n × Vector R n) (ps : List (Vector R n × Vector R n)) :
    c.fed (p :: ps) = (c.update p.1 p.2).2.fed ps := rfl

/-- The pairs of a sequence that are used. -/
def used (c : Curvature R n) : List (Vector R n × Vector R n) → List (Vector R n × Vector R n)
  | [] => []
  | p :: ps =>
    let rest := used (c.update p.1 p.2).2 ps
    if (c.update p.1 p.2).1.wasApplied then p :: rest else rest

theorem used_cons_of_applied {c : Curvature R n} {p : Vector R n × Vector R n}
    (h : (c.update p.1 p.2).1.wasApplied = true) (ps : List (Vector R n × Vector R n)) :
    c.used (p :: ps) = p :: (c.update p.1 p.2).2.used ps := by
  rw [used, if_pos h]

theorem used_cons_of_skipped {c : Curvature R n} {p : Vector R n × Vector R n}
    (h : (c.update p.1 p.2).1.wasApplied = false) (ps : List (Vector R n × Vector R n)) :
    c.used (p :: ps) = (c.update p.1 p.2).2.used ps := by
  rw [used, if_neg (Bool.eq_false_iff.1 h)]

theorem IsStorable.fed {c : Curvature R n} (hc : c.IsStorable)
    (pairs : List (Vector R n × Vector R n)) : (c.fed pairs).IsStorable := by
  induction pairs generalizing c with
  | nil => exact hc
  | cons p ps ih => exact ih (hc.update p.1 p.2)

/-- Nothing but the matrix and the counters ever changes, and the pairs that are used are counted. -/
theorem parameters_fed (c : Curvature R n) (pairs : List (Vector R n × Vector R n)) :
    (c.fed pairs).damping = c.damping ∧ (c.fed pairs).scaleInitial = c.scaleInitial ∧
      (c.fed pairs).applied = c.applied + (c.used pairs).length := by
  induction pairs generalizing c with
  | nil => exact ⟨rfl, rfl, rfl⟩
  | cons p ps ih =>
    obtain ⟨hdamping, hscale, hcount⟩ := ih (c.update p.1 p.2).2
    rw [fed_cons]
    obtain ⟨happlied, -, hnext⟩ | ⟨hskipped, hnext⟩ := c.update_cases p.1 p.2
    · rw [used_cons_of_applied happlied, hdamping, hscale, hcount, hnext, List.length_cons]
      exact ⟨rfl, rfl, by dsimp only; omega⟩
    · rw [used_cons_of_skipped hskipped, hdamping, hscale, hcount, hnext]
      exact ⟨rfl, rfl, rfl⟩

/-- The refusals forgotten. -/
def unskipped (c : Curvature R n) : Curvature R n := { c with skipped := 0 }

/-- The number of refusals has no influence. -/
theorem update_unskipped {c : Curvature R n} {s y : Vector R n} :
    (c.unskipped.update s y).1 = (c.update s y).1 := by
  simp only [update_eq, unskipped, base]
  split_ifs <;> rfl

/-- **Refused pairs leave no trace**: the pairs that were used make the same matrix by themselves. -/
theorem fed_used (c : Curvature R n) (pairs : List (Vector R n × Vector R n)) :
    c.unskipped.fed (c.used pairs) = (c.fed pairs).unskipped := by
  induction pairs generalizing c with
  | nil => rfl
  | cons p ps ih =>
    obtain ⟨happlied, -, hnext⟩ | ⟨hskipped, hnext⟩ := c.update_cases p.1 p.2
    · obtain ⟨-, -, hnext'⟩ | ⟨hskipped, -⟩ := c.unskipped.update_cases p.1 p.2
      · rw [used_cons_of_applied happlied, fed_cons, fed_cons, ← ih, hnext, hnext']
        rfl
      · rw [update_unskipped, happlied] at hskipped
        cases hskipped
    · rw [used_cons_of_skipped hskipped, fed_cons, ← ih, hnext]
      rfl

/-- The matrix that the next pair corrects is the rescaled identity exactly as long as no pair has been
used. -/
theorem base_fed_initial (o : CurvatureOptions R) (past : List (Vector R n × Vector R n))
    (s y : Vector R n) :
    ((initial n o).fed past).base s y = if o.scaleInitial ∧ (initial n o).used past = [] then
      (Mat.identity R n).scaled (dot s y / dot y y) else ((initial n o).fed past).matrix := by
  obtain ⟨-, hscale, hcount⟩ := (initial n o).parameters_fed past
  have hnone : ((initial n o).fed past).applied = 0 ↔ (initial n o).used past = [] := by
    rw [hcount, ← List.length_eq_zero_iff]
    show 0 + _ = 0 ↔ _
    rw [zero_add]
  by_cases hfirst : o.scaleInitial = true ∧ (initial n o).used past = []
  · have hidentity : ((initial n o).fed past).matrix = Mat.identity R n := by
      have htrace := congrArg Curvature.matrix ((initial n o).fed_used past)
      rw [hfirst.2] at htrace
      exact htrace.symm
    rw [if_pos hfirst, base, if_pos ⟨hscale.trans hfirst.1, hnone.2 hfirst.2⟩, hidentity]
  · rw [if_neg hfirst, base, if_neg fun h ↦ hfirst ⟨hscale.symm.trans h.1, hnone.1 h.2⟩]

end Curvature

/-- **Updates are atomic**, whatever the arithmetic does.  Take any sequence of calls, the last of them
with the pair `(s, y)`.  After it the matrix is symmetric and finite.  If the pair was used, its
correction is the next matrix: that of the rescaled identity if rescaling is asked for and the pair is
the first of the sequence to be used, and that of the stored matrix otherwise.  If it was not used, it was
counted, and nothing else.  So the pairs that were used lead to the same matrix by themselves. -/
theorem updates_are_atomic (h0 : isFinite (0 : R) = true) (h1 : isFinite (1 : R) = true)
    (o : CurvatureOptions R) (past : List (Vector R n × Vector R n)) (s y : Vector R n) :
    ∃ (c c' : Curvature R n) (u : SecantUpdate R),
      c = (Curvature.initial n o).fed past ∧ c.update s y = (u, c') ∧
      (∀ i j, c'.matrix i j = c'.matrix j i ∧ isFinite (c'.matrix i j) = true) ∧
      (u.wasApplied = true ↔ u = .applied ∨ u = .damped) ∧
      (u.wasApplied = true → c' = { c with
        matrix := Curvature.correction c.damping
          (if o.scaleInitial ∧ (Curvature.initial n o).used past = [] then
            (Mat.identity R n).scaled (dot s y / dot y y) else c.matrix) s y
        applied := c.applied + 1 }) ∧
      (u.wasApplied = false → c' = { c with skipped := c.skipped + 1 }) ∧
      (Curvature.initial n o).fed ((Curvature.initial n o).used past) = { c with skipped := 0 } ∧
      c.applied = ((Curvature.initial n o).used past).length := by
  let c := (Curvature.initial n o).fed past
  have hstorable := ((Curvature.isStorable_initial h0 h1 o).fed past).update s y
  refine ⟨c, (c.update s y).2, (c.update s y).1, rfl, rfl,
    fun i j ↦ ⟨hstorable.comm i j, Mat.isFinite_iff.1 hstorable.isFinite i j⟩,
    SecantUpdate.wasApplied_iff, fun happlied ↦ ?_, fun hskipped ↦ ?_, (Curvature.initial n o).fed_used past,
    ((Curvature.initial n o).parameters_fed past).2.2.trans (zero_add _)⟩
  · obtain ⟨-, -, hnext⟩ | ⟨hskipped, -⟩ := c.update_cases s y
    · rw [hnext, ← Curvature.base_fed_initial]
    · rw [happlied] at hskipped
      cases hskipped
  · obtain ⟨happlied, -, -⟩ | ⟨-, hnext⟩ := c.update_cases s y
    · rw [hskipped] at happlied
      cases happlied
    · exact hnext

/-- A fresh matrix that is to be rescaled. -/
def freshScaled : Curvature Float 1 := .initial 1 { scaleInitial := true, damping := 0 }

/-- A pair so small that its correction overflows leaves nothing behind but its count: it is the next pair
that rescales the identity. -/
theorem updates_are_atomic_freshScaled :
    isFinite (0 : Float) = true ∧ isFinite (1 : Float) = true ∧
    ∃ u, u.wasApplied = true ∧
      (freshScaled.fed [(#v[1e-160], #v[1e-160])]).update #v[1] #v[4] = (u, { freshScaled with
        matrix := Curvature.correction freshScaled.damping ((Mat.identity Float 1).scaled 0.25) #v[1] #v[4]
        applied := 1
        skipped := 1 }) := by
  have hfinite0 : isFinite (0 : Float) = true := by decide
  have hfinite1 : isFinite (1 : Float) = true := by decide
  have hoverflow : (freshScaled.update #v[1e-160] #v[1e-160]).1.wasApplied = false := by decide +kernel
  have hskip : freshScaled.fed [(#v[1e-160], #v[1e-160])] = freshScaled.skip := by
    obtain ⟨happlied, -⟩ | ⟨-, hskip⟩ := freshScaled.update_cases #v[1e-160] #v[1e-160]
    · rw [hoverflow] at happlied
      cases happlied
    · exact hskip
  have hnone : freshScaled.used [(#v[1e-160], #v[1e-160])] = [] :=
    Curvature.used_cons_of_skipped hoverflow []
  have hused : (freshScaled.skip.update #v[1] #v[4]).1.wasApplied = true := by decide +kernel
  have hratio : dot (#v[1] : Vector Float 1) #v[4] / dot #v[4] #v[4] = (0.25 : Float) := by decide +kernel
  obtain ⟨c, c', u, hc, hupdate, -, -, happlied, -⟩ := updates_are_atomic hfinite0 hfinite1
    { scaleInitial := true, damping := 0 } [(#v[1e-160], #v[1e-160])] #v[1] #v[4]
  change c = freshScaled.fed _ at hc
  rw [hskip] at hc
  subst hc
  rw [hupdate] at hused
  refine ⟨hfinite0, hfinite1, u, hused, ?_⟩
  rw [hskip, hupdate, happlied hused, if_pos ⟨rfl, hnone⟩, hratio]
  rfl

end ExactPenalty
