import Mathlib
import ExactPenalty.Extended

/-!
# Exact arithmetic

The scalars of the library may be rounded numbers, but what the method is meant to do is said about
real numbers.  `instScalarReal` reads every definition of the library over `ℝ`: no operation rounds,
every number is finite and none is a NaN.  The lemmas here turn the scalar operations of the library
into those of Mathlib, so that nothing above this file has to unfold them.
-/

set_option autoImplicit false

namespace ExactPenalty

/-- Exact arithmetic. -/
noncomputable instance instScalarReal : Scalar ℝ where
  abs x := |x|
  sqrt := Real.sqrt
  isFinite _ := true
  isNaN _ := false
  log2Nat x := if 0 < x then ⌊Real.logb 2 x + 1 / 2⌋₊ else 0
  decLt _ _ := inferInstance
  decLe _ _ := inferInstance

/-! ## Scalars -/

namespace Scalar

@[simp] theorem abs_real (x : ℝ) : Scalar.abs x = |x| := rfl

@[simp] theorem sqrt_real (x : ℝ) : Scalar.sqrt x = √x := rfl

@[simp] theorem isFinite_real (x : ℝ) : Scalar.isFinite x = true := rfl

@[simp] theorem isNaN_real (x : ℝ) : Scalar.isNaN x = false := rfl

@[simp] theorem larger_real (a b : ℝ) : Scalar.larger a b = max a b := by
  rw [larger, isNaN_real, max_def_lt]
  simp

@[simp] theorem smaller_real (a b : ℝ) : Scalar.smaller a b = min a b := by
  rw [smaller, isNaN_real, min_comm, min_def_lt]
  simp

@[simp] theorem same_real (a b : ℝ) : Scalar.Same a b ↔ a = b := le_antisymm_iff.symm

theorem epsilon_real_pos : (0 : ℝ) < Scalar.epsilon := by
  show (0 : ℝ) < 1 / ((4503599627370496 : ℕ) : ℝ)
  positivity

end Scalar

/-! ## Scalars with two ends -/

namespace Extended

@[simp] theorem not_atLeast_negInf (x : ℝ) : ¬ (negInf : Extended ℝ).AtLeast x := by
  simp [AtLeast]

@[simp] theorem atLeast_finite (b x : ℝ) : (finite b).AtLeast x ↔ x ≤ b := Iff.rfl

@[simp] theorem atLeast_posInf (x : ℝ) : (posInf : Extended ℝ).AtLeast x := rfl

@[simp] theorem atMost_negInf (x : ℝ) : (negInf : Extended ℝ).AtMost x := rfl

@[simp] theorem atMost_finite (b x : ℝ) : (finite b).AtMost x ↔ b ≤ x := Iff.rfl

@[simp] theorem not_atMost_posInf (x : ℝ) : ¬ (posInf : Extended ℝ).AtMost x := by
  simp [AtMost]

@[simp] theorem finite?_finite (x : ℝ) : (finite x).finite? = some x := rfl

/-- What is above a number is above every smaller one. -/
theorem AtLeast.mono {e : Extended ℝ} {x y : ℝ} (h : e.AtLeast x) (hyx : y ≤ x) : e.AtLeast y := by
  cases e with
  | negInf => exact absurd h (not_atLeast_negInf x)
  | finite b => exact hyx.trans h
  | posInf => exact atLeast_posInf y

/-- What is below a number is below every larger one. -/
theorem AtMost.mono {e : Extended ℝ} {x y : ℝ} (h : e.AtMost x) (hxy : x ≤ y) : e.AtMost y := by
  cases e with
  | negInf => exact atMost_negInf y
  | finite b => exact le_trans h hxy
  | posInf => exact absurd h (not_atMost_posInf x)

end Extended

end ExactPenalty
