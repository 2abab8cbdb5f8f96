import Mathlib
import ExactPenalty.Options
import ExactPenalty.Proofs.Real

/-!
# What the check of the options establishes

`Options.validate` is a sequence of requirements, and it lets a set of options through, unchanged,
exactly when all of them are met.  `Options.IsValid` lists them by name, so that no other proof has
to open the check.
-/

set_option autoImplicit false

namespace ExactPenalty

variable {R : Type} [Scalar R]

/-- Every setting is in its range, and the settings that depend on each other agree. -/
structure Options.IsValid (o : Options R) : Prop where
  mu0_isFinite : Scalar.isFinite o.mu0
  mu0_pos : 0 < o.mu0
  optTol_nonneg : o.stopping.optTol.Nonneg
  relTol_nonneg : o.stopping.relTol.Nonneg
  ineqTol_nonneg : o.stopping.ineqTol.Nonneg
  eqTol_nonneg : o.stopping.eqTol.Nonneg
  target_not_nan : o.stopping.target.isNaN = false
  bundleSize_ne_zero : o.bundle.size ≠ some 0
  radius_nonneg : o.bundle.radius.Nonneg
  damping_nonneg : 0 ≤ o.curvature.damping
  damping_le_one : o.curvature.damping ≤ 1
  ladderMin_le : o.ladder.min ≤ 4
  ladderMax_le : o.ladder.max ≤ 4
  ladderMin_le_max : o.ladder.min ≤ o.ladder.max
  maxRandomAttempts_ne_zero : o.ladder.maxRandomAttempts ≠ 0
  ineqMargin_nonneg : o.steering.ineqMargin.Nonneg
  violationFraction : InOpenUnit o.steering.violationFraction
  shrinkFactor : InOpenUnit o.steering.shrinkFactor
  threshold : o.conditioning.threshold.AtLeast 1
  decrease_pos : 0 < o.search.decrease
  decrease_le : o.search.decrease ≤ 0.5
  curvature_lt_one : o.search.curvature < 1
  in_order : ¬ o.search.curvature < o.search.decrease
  reattempts_ne_zero : o.reattempts.limit ≠ 0
  firstReattempts_ne_zero : o.firstReattempts.limit ≠ 0
  reattemptFactor : InOpenUnit o.reattempts.factor
  firstReattemptFactor : InOpenUnit o.firstReattempts.factor
  initialStep_isFinite : Scalar.isFinite o.search.initialStep
  initialStep_pos : 0 < o.search.initialStep
  searchLimit_ne_zero : o.search.limit ≠ some 0

namespace Options

section Requirements

omit [Scalar R]

variable {β : Type} {setting : Setting} {p : Prop} [Decidable p] {b : β}
    {f : Unit → Except (OptionsError R) β}

theorem requireScalar_bind_eq_ok {x : Extended R} :
    (requireScalar setting x p >>= f) = .ok b ↔ p ∧ f () = .ok b := by
  by_cases hp : p
  · rw [requireScalar, if_pos hp]
    exact ⟨fun h ↦ ⟨hp, h⟩, fun h ↦ h.2⟩
  · rw [requireScalar, if_neg hp]
    exact ⟨(nomatch ·), fun h ↦ absurd h.1 hp⟩

theorem requireCount_bind_eq_ok {n : Nat} :
    (requireCount setting n p >>= f) = .ok b ↔ p ∧ f () = .ok b := by
  by_cases hp : p
  · rw [requireCount, if_pos hp]
    exact ⟨fun h ↦ ⟨hp, h⟩, fun h ↦ h.2⟩
  · rw [requireCount, if_neg hp]
    exact ⟨(nomatch ·), fun h ↦ absurd h.1 hp⟩

theorem refuse_eq_ok {e : OptionsError R} {x : Except (OptionsError R) β} :
    (if p then throw e >>= f else x) = .ok b ↔ ¬p ∧ x = .ok b := by
  by_cases hp : p
  · rw [if_pos hp]
    exact ⟨(nomatch ·), fun h ↦ absurd hp h.1⟩
  · rw [if_neg hp]
    exact ⟨fun h ↦ ⟨hp, h⟩, fun h ↦ h.2⟩

end Requirements

/-- **The check lets valid options through unchanged, and no others.** -/
theorem validate_eq_ok_iff {o o' : Options R} : o.validate = .ok o' ↔ o' = o ∧ o.IsValid := by
  simp only [validate, requireScalar_bind_eq_ok, requireCount_bind_eq_ok, refuse_eq_ok]
  constructor
  · rintro ⟨⟨mu0Finite, mu0Pos⟩, optTol, relTol, ineqTol, eqTol, target, bundleSize, radius,
      ⟨dampingNonneg, dampingLe⟩, ladderMin, ladderMax, minLeMax, maxRandom, ineqMargin, fraction,
      shrink, threshold, ⟨decreasePos, decreaseLe⟩, curvature, inOrder, reattempts, firstReattempts,
      factor, firstFactor, ⟨stepFinite, stepPos⟩, searchLimit, h⟩
    cases h
    exact ⟨rfl, mu0Finite, mu0Pos, optTol, relTol, ineqTol, eqTol, target, bundleSize, radius,
      dampingNonneg, dampingLe, ladderMin, ladderMax, Nat.not_lt.1 minLeMax, maxRandom, ineqMargin,
      fraction, shrink, threshold, decreasePos, decreaseLe, curvature, inOrder, reattempts,
      firstReattempts, factor, firstFactor, stepFinite, stepPos, searchLimit⟩
  · rintro ⟨rfl, h⟩
    exact ⟨⟨h.mu0_isFinite, h.mu0_pos⟩, h.optTol_nonneg, h.relTol_nonneg, h.ineqTol_nonneg,
      h.eqTol_nonneg, h.target_not_nan, h.bundleSize_ne_zero, h.radius_nonneg,
      ⟨h.damping_nonneg, h.damping_le_one⟩, h.ladderMin_le, h.ladderMax_le,
      Nat.not_lt.2 h.ladderMin_le_max, h.maxRandomAttempts_ne_zero, h.ineqMargin_nonneg,
      h.violationFraction, h.shrinkFactor, h.threshold, ⟨h.decrease_pos, h.decrease_le⟩,
      h.curvature_lt_one, h.in_order, h.reattempts_ne_zero, h.firstReattempts_ne_zero,
      h.reattemptFactor, h.firstReattemptFactor, ⟨h.initialStep_isFinite, h.initialStep_pos⟩,
      h.searchLimit_ne_zero, rfl⟩

theorem isValid_of_isOk {o : Options R} (h : o.validate.isOk = true) : o.IsValid := by
  cases hvalidate : o.validate with
  | error e =>
    rw [hvalidate] at h
    cases h
  | ok o' => exact (validate_eq_ok_iff.1 hvalidate).2

/-- The defaults pass the check. -/
theorem isValid_standard : (Options.standard : Options ℝ).IsValid where
  mu0_isFinite := rfl
  mu0_pos := one_pos
  optTol_nonneg := show (0 : ℝ) ≤ 1e-8 by norm_num
  relTol_nonneg := le_refl (0 : ℝ)
  ineqTol_nonneg := le_refl (0 : ℝ)
  eqTol_nonneg := show (0 : ℝ) ≤ 1e-6 by norm_num
  target_not_nan := rfl
  bundleSize_ne_zero := by simp [Options.standard]
  radius_nonneg := show (0 : ℝ) ≤ 1e-4 by norm_num
  damping_nonneg := show (0 : ℝ) ≤ 1e-4 by norm_num
  damping_le_one := show (1e-4 : ℝ) ≤ 1 by norm_num
  ladderMin_le := by decide
  ladderMax_le := by simp [Options.standard]
  ladderMin_le_max := by simp [Options.standard]
  maxRandomAttempts_ne_zero := by simp [Options.standard]
  ineqMargin_nonneg := show (0 : ℝ) ≤ 1e-6 by norm_num
  violationFraction := show (0 : ℝ) < 0.1 ∧ (0.1 : ℝ) < 1 by norm_num
  shrinkFactor := show (0 : ℝ) < 0.9 ∧ (0.9 : ℝ) < 1 by norm_num
  threshold := Extended.atLeast_posInf 1
  decrease_pos := show (0 : ℝ) < 1e-4 by norm_num
  decrease_le := show (1e-4 : ℝ) ≤ 0.5 by norm_num
  curvature_lt_one := show (0.5 : ℝ) < 1 by norm_num
  in_order := show ¬(0.5 : ℝ) < 1e-4 by norm_num
  reattempts_ne_zero := by simp [Options.standard]
  firstReattempts_ne_zero := by simp [Options.standard]
  reattemptFactor := show (0 : ℝ) < 0.5 ∧ (0.5 : ℝ) < 1 by norm_num
  firstReattemptFactor := show (0 : ℝ) < 0.5 ∧ (0.5 : ℝ) < 1 by norm_num
  initialStep_isFinite := rfl
  initialStep_pos := one_pos
  searchLimit_ne_zero := by simp [Options.standard]

end Options

end ExactPenalty
