import Mathlib
import ExactPenalty.Proofs.Linear

/-!
# Loops over the indices

The algorithms of linear algebra run through the indices of a vector, upwards by `Fin.foldl` or
downwards by `Fin.foldr`.  What is said about such a loop is said with the number of indices that are
done: `foldl_invariant` counts them from below, and `foldr_invariant` from above.

## What is here

* `foldl_invariant`, `foldr_invariant` — what one round keeps, the loop keeps.
* `foldl_or_eq_true_iff`, `foldl_add_if`, `foldl_sub_unless` — loops that are met in several places.
* `get_replaced`, `get_exchanged` — the components that the loops write.
-/

set_option autoImplicit false

namespace ExactPenalty

namespace Linear

variable {α : Type} {n : Nat}

/-! ## Invariants -/

/-- **An upward loop keeps what its rounds keep.** -/
theorem foldl_invariant {P : Nat → α → Prop} {f : α → Fin n → α} {a : α} (hstart : P 0 a)
    (hround : ∀ (i : Fin n) (a : α), P i a → P (i + 1) (f a i)) : P n (Fin.foldl n f a) := by
  induction n with
  | zero => rwa [Fin.foldl_zero]
  | succ n ih =>
    rw [Fin.foldl_succ_last]
    exact hround (Fin.last n) _ (ih fun i a ↦ hround i.castSucc a)

/-- **A downward loop keeps what its rounds keep.** -/
theorem foldr_invariant {P : Nat → α → Prop} {f : Fin n → α → α} {a : α} (hstart : P n a)
    (hround : ∀ (i : Fin n) (a : α), P (i + 1) a → P i (f i a)) : P 0 (Fin.foldr n f a) := by
  induction n generalizing a with
  | zero => rwa [Fin.foldr_zero]
  | succ n ih =>
    rw [Fin.foldr_succ_last]
    exact ih (hround (Fin.last n) a hstart) fun i a ↦ hround i.castSucc a

/-! ## Searches and sums -/

/-- A loop that looks for an index finds it if there is one. -/
theorem foldl_or_eq_true_iff (p : Fin n → Bool) :
    Fin.foldl n (fun found i ↦ found || p i) false = true ↔ ∃ i, p i = true := by
  induction n with
  | zero => simp
  | succ n ih => rw [Fin.foldl_succ_last, Bool.or_eq_true, ih, Fin.exists_fin_succ']

/-- A loop that adds the terms of some indices. -/
theorem foldl_add_if (p : Fin n → Prop) [DecidablePred p] (f : Fin n → ℝ) (a : ℝ) :
    Fin.foldl n (fun r j ↦ if p j then r + f j else r) a = a + ∑ j, if p j then f j else 0 := by
  have hadd : (fun (r : ℝ) j ↦ if p j then r + f j else r) = fun r j ↦ r + if p j then f j else 0 := by
    funext r j
    split_ifs
    · rfl
    · rw [add_zero]
  rw [hadd, foldl_add_eq]

/-- A loop that subtracts the terms of the indices outside a list. -/
theorem foldl_sub_unless (skip : List (Fin n)) (f : Fin n → ℝ) (a : ℝ) :
    Fin.foldl n (fun r j ↦ if j ∈ skip then r else r - f j) a
      = a - ∑ j, if j ∈ skip then 0 else f j := by
  have hadd : (fun (r : ℝ) j ↦ if j ∈ skip then r else r - f j)
      = fun r j ↦ if j ∉ skip then r + -f j else r := by
    funext r j
    rw [ite_not, ← sub_eq_add_neg]
  rw [hadd, foldl_add_if, sub_eq_add_neg, ← Finset.sum_neg_distrib]
  refine congrArg (a + ·) (Finset.sum_congr rfl fun j _ ↦ ?_)
  split_ifs
  · rw [neg_zero]
  · rfl

/-! ## Components -/

theorem get_replaced (v : Vector α n) (i j : Fin n) (x : α) :
    (replaced v i x).get j = if j = i then x else v.get j := by
  rw [get_eq, get_eq, replaced, Vector.getElem_set]
  simp only [Fin.ext_iff, eq_comm]

theorem get_exchanged (v : Vector α n) (i j k : Fin n) :
    (exchanged v i j).get k = v.get (Equiv.swap i j k) := by
  rw [get_eq, get_eq, exchanged, Vector.getElem_swap]
  simp only [Equiv.swap_apply_def, Fin.ext_iff]
  split_ifs <;> rfl

end Linear

end ExactPenalty
