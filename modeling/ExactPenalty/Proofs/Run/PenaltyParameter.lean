import Mathlib
import ExactPenalty.Proofs.Direction
import ExactPenalty.Proofs.Run.Iterations
import ExactPenalty.Proofs.Run.Shrinking

/-!
# The penalty parameter in exact arithmetic

In exact arithmetic the order of the factors that shrink the penalty parameter does not matter, so it
is the given one times a power of each (`Shrunk.map_eq`).  With valid options it stays positive and does
not rise (`RunContext.mu_le_of_run_eq`).
-/

set_option autoImplicit false

namespace ExactPenalty

open ExactPenalty.Action

variable {σ : Type} {n : Nat}

/-! ## Two factors -/

/-- Where products are exact, only the numbers of the factors count. -/
theorem Shrunk.map_eq {R : Type} [Scalar R] {c₁ c₂ μ ν : R} {r k : Nat} (value : R →ₙ* ℝ)
    (h : Shrunk c₁ c₂ μ r k ν) : value ν = value μ * value c₁ ^ r * value c₂ ^ k := by
  induction h with
  | refl => rw [pow_zero, pow_zero, mul_one, mul_one]
  | first _ ih =>
    rw [map_mul, ih, pow_succ]
    ring
  | second _ ih =>
    rw [map_mul, ih, pow_succ]
    ring

theorem Shrunk.pos {c₁ c₂ μ ν : ℝ} {r k : Nat} (h₁ : 0 < c₁) (h₂ : 0 < c₂) (hμ : 0 < μ)
    (h : Shrunk c₁ c₂ μ r k ν) : 0 < ν := by
  induction h with
  | refl => exact hμ
  | first _ ih => exact mul_pos ih h₁
  | second _ ih => exact mul_pos ih h₂

/-! ## Directions -/

namespace IterationContext

variable {it : IterationContext σ ℝ n} {level : Level} {μ : ℝ} {d : Direction ℝ n}
    {s s' : Session σ ℝ n}

/-- A direction is made for a penalty parameter that is at most the one in force. -/
theorem mu_le_of_makeDirection_eq_ok (hμ : 0 < μ)
    (hshrink : InOpenUnit it.options.steering.shrinkFactor)
    (h : it.makeDirection level μ s = (.ok d, s')) : d.mu ≤ μ := by
  have hresult := congrArg Prod.fst h
  rw [fst_makeDirection] at hresult
  rcases DirectionContext.result_attempt_eq_ok hresult with hmu | ⟨-, -, k, -, hmu⟩
  · exact hmu.le
  · have hshrunk := Shrunk.iterate it.options.steering.shrinkFactor
      it.options.steering.shrinkFactor μ k
    rw [← hmu] at hshrunk
    exact (hshrunk.le Scalar.shrinks_real hshrink hshrink hμ.le).2

/-- Directions descend, unless the options let others through. -/
theorem slope_neg_of_makeDirection_eq_ok (hlimit : it.options.search.nondescentLimit = 0)
    (h : it.makeDirection level μ s = (.ok d, s')) : d.slope < 0 := by
  have hresult := congrArg Prod.fst h
  rw [fst_makeDirection] at hresult
  obtain ⟨-, -, -, hslope | hlenient⟩ := DirectionContext.exists_proposal hresult
  · exact hslope
  · exact absurd hlimit (of_decide_eq_true hlenient)

end IterationContext

/-! ## Iterations -/

namespace RunContext

variable {run : RunContext σ ℝ n} {a b : Stage σ ℝ n}

/-- The penalty parameter is positive, and an iteration does not raise it. -/
theorem mu_le_of_run_eq (hoptions : run.options.IsValid) (hmu : 0 < a.progress.current.mu)
    {r : Except Termination (Move ℝ n)} {μ : ℝ} {s : Session σ ℝ n}
    (h : (run.climber a).run a.progress.current.mu (run.entered a) = ((r, μ), s)) :
    0 < μ ∧ μ ≤ a.progress.current.mu := by
  refine ⟨?_, (mu_le_of_shrinks Scalar.shrinks_real hoptions hmu.le h).2⟩
  obtain ⟨c, rfl, ⟨_, _, -, hshrunk, -⟩, -⟩ := IterationContext.shrinks_of_run_eq h
  exact hshrunk.pos (reattemptFactor_climber hoptions a).1 hoptions.shrinkFactor.1 hmu

/-- The penalty parameter stays positive. -/
theorem mu_pos_of_iterateOnce (hoptions : run.options.IsValid) (h : run.iterateOnce a = .inl b)
    (hmu : 0 < a.progress.current.mu) : 0 < b.progress.current.mu := by
  obtain ⟨move, μ, s, -, hrun, rfl⟩ := exists_move h
  exact (mu_le_of_run_eq hoptions hmu hrun).1

end RunContext

end ExactPenalty
