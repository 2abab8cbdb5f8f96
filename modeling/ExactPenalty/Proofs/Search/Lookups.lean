import Mathlib.Tactic.SplitIfs
import ExactPenalty.Proofs.Search

/-!
# The look-ups of a search

A search touches the world through look-ups only, and it counts all of them but one that meets the
end of the budget.  `Lookups ask s k s'` says that look-ups lead from `s` to `s'` and that `k` of
them count; `lookups_lineSearch` says this of both searches, with the number that they report.

`lineSearch_eq_error` sorts the failures: a search was stopped by its last look-up, or else it found
that the direction does not descend exactly where the slope it was given says so.
-/

set_option autoImplicit false

namespace ExactPenalty

open ExactPenalty.Action

variable {σ R : Type} {n : Nat}

/-- What a look-up counts: one, unless it met the end of the budget. -/
def Lookup.cost : Lookup R n → Nat
  | .stopped => 0
  | _ => 1

/-- The evaluations that a search reports. -/
def SearchResult.evaluations : SearchResult R n → Nat
  | .ok outcome => outcome.evaluations
  | .error e => e.evaluations

/-- Look-ups lead from one state to another, and so many of them count. -/
inductive Lookups (ask : Oracle σ R n) (s : σ) : Nat → σ → Prop where
  | none : Lookups ask s 0 s
  | next {k : Nat} {s' : σ} (x : Vector R n) : Lookups ask s k s' →
      Lookups ask s (k + (ask x s').1.cost) (ask x s').2

namespace Lookups

variable {ask : Oracle σ R n} {s s' : σ} {k : Nat}

theorem counted {x : Vector R n} {answer : Lookup R n} {s₁ : σ} (h : Lookups ask s k s')
    (hask : ask x s' = (answer, s₁)) : Lookups ask s (k + answer.cost) s₁ := by
  have hnext := h.next x
  rwa [hask] at hnext

/-- What every look-up does to the state, any number of look-ups does. -/
theorem rel {rel : σ → σ → Prop} [IsPreorder σ rel] (h : Lookups ask s k s')
    (hask : ∀ x, Leads rel (ask x)) : rel s s' := by
  induction h with
  | none => exact refl_of rel s
  | next x _ ih => exact trans_of rel ih (hask x _)

/-- A quantity that grows with every look-up that counts. -/
theorem count_eq {count : σ → Nat}
    (hask : ∀ x s, count (ask x s).2 = count s + (ask x s).1.cost) (h : Lookups ask s k s') :
    count s' = count s + k := by
  induction h with
  | none => rfl
  | next x _ ih => rw [hask, ih, Nat.add_assoc]

end Lookups

section Rounds

variable [Scalar R] {ask : Oracle σ R n} {task : SearchTask R n} {o : SearchOptions R}
    {limits : BracketLimits} {exhausted : SearchFailure R} {s s₀ : σ}

/-! ## Rounds of the bracketing search -/

theorem Bracket.evaluations_after (b : Bracket R n) (trial : Option (Trial R n)) (tooLong : Bool) :
    (b.after trial tooLong).evaluations = b.evaluations + 1 := by
  have hnarrowed : ((b.counted trial).narrowed tooLong).evaluations = b.evaluations + 1 := by
    rw [narrowed]
    split <;> rfl
  rw [after, advanced]
  split <;> exact hnarrowed

theorem lookups_bracketRound_inl {a b : Bracket R n × σ} (h : Lookups ask s₀ a.1.evaluations a.2)
    (hab : bracketRound ask task o limits a = .inl b) : Lookups ask s₀ b.1.evaluations b.2 := by
  rw [bracketRound] at hab
  split_ifs at hab
  rcases hask : ask (task.pointAt a.1.step) a.2 with ⟨observation | _ | _, s⟩ <;> rw [hask] at hab
  · cases hv : task.verdict o (Trial.ofObservation task a.1.step observation) <;>
      simp only [hv] at hab <;> cases hab <;> rw [Bracket.evaluations_after] <;>
      exact h.counted hask
  · cases hab
    rw [Bracket.evaluations_after]
    exact h.counted hask
  · cases hab

theorem lookups_bracketRound_inr {a : Bracket R n × σ} {r : SearchResult R n}
    (h : Lookups ask s₀ a.1.evaluations a.2)
    (har : bracketRound ask task o limits a = .inr (r, s)) : Lookups ask s₀ r.evaluations s := by
  rw [bracketRound] at har
  split_ifs at har
  · rcases hask : ask (task.pointAt a.1.step) a.2 with ⟨observation | _ | _, s₁⟩ <;>
      rw [hask] at har
    · cases hv : task.verdict o (Trial.ofObservation task a.1.step observation) <;>
        simp only [hv] at har <;> cases har
      exact h.counted hask
    · cases har
    · cases har
      exact h.counted hask
  · cases har
    exact h

/-- A round that gives up was stopped, or the search may not go on. -/
theorem bracketRound_eq_error {a : Bracket R n × σ} {e : SearchError R n}
    (h : bracketRound ask task o limits a = .inr (.error e, s)) :
    (e.reason = .budgetExhausted ∧ ask (task.pointAt a.1.step) a.2 = (.stopped, s)) ∨
      (¬ a.1.MayContinue limits ∧ e = a.1.failure task) := by
  rw [bracketRound] at h
  split_ifs at h with hcontinue
  · rcases hask : ask (task.pointAt a.1.step) a.2 with ⟨observation | _ | _, s₁⟩ <;> rw [hask] at h
    · cases hv : task.verdict o (Trial.ofObservation task a.1.step observation) <;>
        simp only [hv] at h <;> cases h
    · cases h
    · cases h
      exact .inl ⟨rfl, rfl⟩
  · cases h
    exact .inr ⟨hcontinue, rfl⟩

theorem Bracket.reason_failure (b : Bracket R n) (task : SearchTask R n) :
    (b.failure task).reason ≠ .budgetExhausted ∧
      ((b.failure task).reason = .nonDescent ↔ 0 ≤ task.slope) := by
  rw [failure]
  dsimp only
  split_ifs with hslope
  · simp [hslope]
  · cases b.upper with
    | negInf | posInf => simp [hslope]
    | finite u =>
      dsimp only
      split_ifs <;> simp [hslope]

/-! ## Rounds of the backtracking search -/

theorem lookups_halvingRound_inl {a b : Halving R n × σ} (h : Lookups ask s₀ a.1.evaluations a.2)
    (hab : halvingRound ask task o exhausted a = .inl b) :
    Lookups ask s₀ b.1.evaluations b.2 := by
  rw [halvingRound] at hab
  split_ifs at hab
  rcases hask : ask (task.pointAt a.1.step) a.2 with ⟨observation | _ | _, s⟩ <;> rw [hask] at hab
  · dsimp only at hab
    split_ifs at hab
    cases hab
    exact h.counted hask
  · cases hab
    exact h.counted hask
  · cases hab

theorem lookups_halvingRound_inr {a : Halving R n × σ} {r : SearchResult R n}
    (h : Lookups ask s₀ a.1.evaluations a.2)
    (har : halvingRound ask task o exhausted a = .inr (r, s)) :
    Lookups ask s₀ r.evaluations s := by
  rw [halvingRound] at har
  split_ifs at har
  · cases har
    exact h
  · rcases hask : ask (task.pointAt a.1.step) a.2 with ⟨observation | _ | _, s₁⟩ <;>
      rw [hask] at har
    · dsimp only at har
      split_ifs at har
      cases har
      exact h.counted hask
    · cases har
    · cases har
      exact h.counted hask

theorem halvingRound_eq_error {a : Halving R n × σ} {e : SearchError R n}
    (h : halvingRound ask task o exhausted a = .inr (.error e, s)) :
    (e.reason = .budgetExhausted ∧ ask (task.pointAt a.1.step) a.2 = (.stopped, s)) ∨
      e.reason = exhausted := by
  rw [halvingRound] at h
  split_ifs at h
  · cases h
    exact .inr rfl
  · rcases hask : ask (task.pointAt a.1.step) a.2 with ⟨observation | _ | _, s₁⟩ <;> rw [hask] at h
    · dsimp only at h
      split_ifs at h
      cases h
    · cases h
    · cases h
      exact .inl ⟨rfl, rfl⟩

/-! ## Whole searches -/

theorem lookups_weakWolfe (ask : Oracle σ R n) (task : SearchTask R n) (o : SearchOptions R)
    (s : σ) : Lookups ask s (weakWolfe ask task o s).1.evaluations (weakWolfe ask task o s).2 := by
  have hends : Ends (bracketRound ask task o (task.bracketLimits o)) (.start o.initialStep, s)
      (weakWolfe ask task o s) := ends_searchBracket _ _
  obtain ⟨b, hb, hlast⟩ := hends.exists_last
    (P := fun a : Bracket R n × σ ↦ Lookups ask s a.1.evaluations a.2)
    (fun a b hab h ↦ lookups_bracketRound_inl h hab) .none
  exact lookups_bracketRound_inr hb hlast

theorem lookups_backtracking (ask : Oracle σ R n) (task : SearchTask R n) (o : SearchOptions R)
    (s : σ) :
    Lookups ask s (backtracking ask task o s).1.evaluations (backtracking ask task o s).2 := by
  have hends := ends_halveFrom ask (task.forBacktracking o) o
    (if 0 ≤ task.slope then .nonDescent else .armijoNotSatisfied)
    ⟨task.backtrackingLimit o, 0, o.initialStep, none⟩ s
  obtain ⟨b, hb, hlast⟩ := hends.exists_last
    (P := fun a : Halving R n × σ ↦ Lookups ask s a.1.evaluations a.2)
    (fun a b hab h ↦ lookups_halvingRound_inl h hab) .none
  exact lookups_halvingRound_inr hb hlast

/-- **A search makes look-ups, and counts them.** -/
theorem lookups_lineSearch (ask : Oracle σ R n) (task : SearchTask R n) (o : SearchOptions R)
    (s : σ) :
    Lookups ask s (lineSearch ask task o s).1.evaluations (lineSearch ask task o s).2 := by
  rw [lineSearch]
  split_ifs
  · exact lookups_backtracking ask task o s
  · exact lookups_weakWolfe ask task o s

/-- **Why a search fails.**  Its last look-up was stopped, or else the failure says whether the
direction descends. -/
theorem lineSearch_eq_error {e : SearchError R n} {s' : σ}
    (h : lineSearch ask task o s = (.error e, s')) :
    (e.reason = .budgetExhausted ∧ ∃ x s₁, ask x s₁ = (.stopped, s')) ∨
      (e.reason ≠ .budgetExhausted ∧ (e.reason = .nonDescent ↔ 0 ≤ task.slope)) := by
  rw [lineSearch] at h
  split_ifs at h
  · have hends := ends_halveFrom ask (task.forBacktracking o) o
      (if 0 ≤ task.slope then .nonDescent else .armijoNotSatisfied)
      ⟨task.backtrackingLimit o, 0, o.initialStep, none⟩ s
    rw [backtracking] at h
    rw [h] at hends
    obtain ⟨a, -, hlast⟩ := hends.exists_last (P := fun _ ↦ True) (fun _ _ _ _ ↦ trivial) trivial
    rcases halvingRound_eq_error hlast with ⟨hreason, hask⟩ | hreason
    · exact .inl ⟨hreason, _, _, hask⟩
    · refine .inr ?_
      rw [hreason]
      split_ifs with hslope <;> simp [hslope]
  · have hends : Ends (bracketRound ask task o (task.bracketLimits o)) (.start o.initialStep, s)
        (.error e, s') := h ▸ ends_searchBracket _ s
    obtain ⟨a, -, hlast⟩ := hends.exists_last (P := fun _ ↦ True) (fun _ _ _ _ ↦ trivial) trivial
    rcases bracketRound_eq_error hlast with ⟨hreason, hask⟩ | ⟨-, rfl⟩
    · exact .inl ⟨hreason, _, _, hask⟩
    · exact .inr (a.1.reason_failure task)

end Rounds

end ExactPenalty
