import ExactPenalty.Extended

/-!
# Options

Every tunable of a run, grouped by the part of the method that reads it, with the defaults and the
check that is made once before a run starts.

* `Options` — the record, and `Options.standard`, the default values.
* `Options.validate` — the check.  It returns the options unchanged, or the first complaint in the
  fixed order in which the settings are listed there.
* `OptionsError` — a setting outside its range, an empty ladder, or two line search constants in the
  wrong order.

The tests are written positively (`0 ≤ t`, never "not `t < 0`"), so that a value which is not a
number fails them.
-/

set_option autoImplicit false

namespace ExactPenalty

/-! ## The record -/

/-- When to stop. -/
structure StoppingOptions (R : Type) where
  /-- Largest stationarity measure that counts as converged. -/
  optTol : Extended R
  /-- Largest relative decrease that counts as none; zero switches the test off. -/
  relTol : Extended R
  /-- Largest inequality violation of a feasible point. -/
  ineqTol : Extended R
  /-- Largest equality violation of a feasible point. -/
  eqTol : Extended R
  maxIterations : Nat
  /-- An objective value that is good enough at a feasible point. -/
  target : Extended R

/-- What a run may consume. -/
structure BudgetOptions where
  /-- Wall-clock time in whole seconds. -/
  seconds : Option Nat
  /-- Evaluations of the problem. -/
  evaluations : Option Nat

/-- The bundle of gradients behind the stationarity measure. -/
structure BundleOptions (R : Type) where
  /-- How many recent gradients are kept; chosen from the dimension if absent. -/
  size : Option Nat
  /-- How far away a sample may lie from the current point. -/
  radius : Extended R

/-- The inverse-curvature updates. -/
structure CurvatureOptions (R : Type) where
  /-- Scale the identity by the first accepted secant pair. -/
  scaleInitial : Bool
  /-- Pairs whose curvature is below this fraction of the predicted one are damped. -/
  damping : R

/-- The range of the ladder of search directions. -/
structure LadderOptions where
  min : Nat
  max : Nat
  maxRandomAttempts : Nat

/-- Steering towards feasibility. -/
structure SteeringOptions (R : Type) where
  /-- Measure violations by their sum rather than by the largest one. -/
  l1Model : Bool
  /-- Steering is used once an inequality comes this close to zero. -/
  ineqMargin : Extended R
  /-- How often the penalty parameter may be shrunk for one direction. -/
  maxShrinks : Nat
  /-- Fraction of the reference reduction that is asked for. -/
  violationFraction : R
  /-- Factor of one shrink. -/
  shrinkFactor : R

/-- The cap on the condition number of the matrix inside the quadratic programs. -/
structure ConditioningOptions (R : Type) where
  threshold : Extended R
  /-- Lower the largest eigenvalues instead of raising the smallest. -/
  lowerLargest : Bool

/-- How often, and by what factor, the penalty parameter shrinks when no step can be bracketed. -/
structure ReattemptOptions (R : Type) where
  limit : Nat
  factor : R

/-- The line searches. -/
structure SearchOptions (R : Type) where
  /-- Constant of the sufficient decrease test. -/
  decrease : R
  /-- Constant of the curvature test. -/
  curvature : R
  /-- Evaluations allowed along a direction that does not descend. -/
  nondescentLimit : Nat
  /-- The first step that is tried. -/
  initialStep : R
  /-- Evaluations allowed in any one search. -/
  limit : Option Nat
  /-- Halve the step until it decreases enough, and ask for nothing else. -/
  backtracking : Bool
  /-- Normalise the direction before backtracking along it. -/
  unitDirection : Bool

/-- All settings of a run. -/
structure Options (R : Type) where
  /-- The initial penalty parameter. -/
  mu0 : R
  stopping : StoppingOptions R
  budget : BudgetOptions
  bundle : BundleOptions R
  curvature : CurvatureOptions R
  /-- Seed of the random directions. -/
  seed : UInt64
  ladder : LadderOptions
  steering : SteeringOptions R
  conditioning : ConditioningOptions R
  search : SearchOptions R
  reattempts : ReattemptOptions R
  /-- Reattempts in the first iteration. -/
  firstReattempts : ReattemptOptions R
  /-- Move somewhere instead of stopping when the whole ladder has failed. -/
  forceMovement : Bool

variable {R : Type} [Scalar R]

/-- The default values. -/
def Options.standard : Options R where
  mu0 := 1
  stopping :=
    { optTol := .finite 1e-8, relTol := .finite 0, ineqTol := .finite 0, eqTol := .finite 1e-6
      maxIterations := 1000, target := .negInf }
  budget := { seconds := none, evaluations := none }
  bundle := { size := none, radius := .finite 1e-4 }
  curvature := { scaleInitial := true, damping := 1e-4 }
  seed := 0x5EEDB0F500000001
  ladder := { min := 0, max := 3, maxRandomAttempts := 5 }
  steering :=
    { l1Model := true, ineqMargin := .finite 1e-6, maxShrinks := 10
      violationFraction := 0.1, shrinkFactor := 0.9 }
  conditioning := { threshold := .posInf, lowerLargest := false }
  search :=
    { decrease := 1e-4, curvature := 0.5, nondescentLimit := 0, initialStep := 1, limit := none
      backtracking := false, unitDirection := false }
  reattempts := { limit := 10, factor := 0.5 }
  firstReattempts := { limit := 30, factor := 0.5 }
  forceMovement := false

/-- Fewer than the cap allows, if there is a cap. -/
def BelowCap (used : Nat) : (cap : Option Nat) → Prop
  | some cap => used < cap
  | none => True

instance instDecidableBelowCap (used : Nat) :
    (cap : Option Nat) → Decidable (BelowCap used cap)
  | some cap => inferInstanceAs (Decidable (used < cap))
  | none => inferInstanceAs (Decidable True)

/-- The number of gradients kept for a problem with `n` variables, at least one. -/
def BundleOptions.capacity (o : BundleOptions R) (n : Nat) : Nat :=
  max (o.size.getD (min (min 100 (2 * n)) (n + 10))) 1

/-! ## The check -/

/-- The settings that have an admissible range of their own. -/
inductive Setting where
  | mu0 | optTol | relTol | ineqTol | eqTol | target | bundleSize | bundleRadius | damping
  | ladderMin | ladderMax | maxRandomAttempts | ineqMargin | violationFraction | shrinkFactor
  | threshold | decrease | curvature | reattempts | firstReattempts | reattemptFactor
  | firstReattemptFactor | initialStep | searchLimit
  deriving DecidableEq, Repr

/-- The offending value of a setting. -/
inductive SettingValue (R : Type) where
  | scalar (x : Extended R)
  | count (n : Nat)

/-- Why a set of options is refused. -/
inductive OptionsError (R : Type) where
  | outOfRange (setting : Setting) (value : SettingValue R)
  /-- The lowest permitted rung lies above the highest. -/
  | emptyLadder (min max : Nat)
  /-- The curvature constant is below the decrease constant. -/
  | constantsOutOfOrder (decrease curvature : R)

/-- Strictly between zero and one. -/
def InOpenUnit (x : R) : Prop := 0 < x ∧ x < 1

instance instDecidableInOpenUnit (x : R) : Decidable (InOpenUnit x) :=
  inferInstanceAs (Decidable (0 < x ∧ x < 1))

/-- At least zero. -/
abbrev Extended.Nonneg (e : Extended R) : Prop := e.AtLeast 0

namespace Options

/-- Refuses the value of a setting unless the condition holds. -/
def requireScalar (setting : Setting) (x : Extended R) (p : Prop) [Decidable p] :
    Except (OptionsError R) Unit :=
  if p then .ok () else .error (.outOfRange setting (.scalar x))

/-- Refuses the value of a counting setting unless the condition holds. -/
def requireCount (setting : Setting) (n : Nat) (p : Prop) [Decidable p] :
    Except (OptionsError R) Unit :=
  if p then .ok () else .error (.outOfRange setting (.count n))

/-- Checks every setting against its range and returns the options unchanged. -/
def validate (o : Options R) : Except (OptionsError R) (Options R) := do
  requireScalar .mu0 (.finite o.mu0) (Scalar.isFinite o.mu0 ∧ 0 < o.mu0)
  requireScalar .optTol o.stopping.optTol o.stopping.optTol.Nonneg
  requireScalar .relTol o.stopping.relTol o.stopping.relTol.Nonneg
  requireScalar .ineqTol o.stopping.ineqTol o.stopping.ineqTol.Nonneg
  requireScalar .eqTol o.stopping.eqTol o.stopping.eqTol.Nonneg
  requireScalar .target o.stopping.target (o.stopping.target.isNaN = false)
  requireCount .bundleSize 0 (o.bundle.size ≠ some 0)
  requireScalar .bundleRadius o.bundle.radius o.bundle.radius.Nonneg
  requireScalar .damping (.finite o.curvature.damping)
    (0 ≤ o.curvature.damping ∧ o.curvature.damping ≤ 1)
  requireCount .ladderMin o.ladder.min (o.ladder.min ≤ 4)
  requireCount .ladderMax o.ladder.max (o.ladder.max ≤ 4)
  if o.ladder.max < o.ladder.min then
    throw (.emptyLadder o.ladder.min o.ladder.max)
  requireCount .maxRandomAttempts 0 (o.ladder.maxRandomAttempts ≠ 0)
  requireScalar .ineqMargin o.steering.ineqMargin o.steering.ineqMargin.Nonneg
  requireScalar .violationFraction (.finite o.steering.violationFraction)
    (InOpenUnit o.steering.violationFraction)
  requireScalar .shrinkFactor (.finite o.steering.shrinkFactor)
    (InOpenUnit o.steering.shrinkFactor)
  requireScalar .threshold o.conditioning.threshold (o.conditioning.threshold.AtLeast 1)
  requireScalar .decrease (.finite o.search.decrease)
    (0 < o.search.decrease ∧ o.search.decrease ≤ 0.5)
  requireScalar .curvature (.finite o.search.curvature) (o.search.curvature < 1)
  if o.search.curvature < o.search.decrease then
    throw (.constantsOutOfOrder o.search.decrease o.search.curvature)
  requireCount .reattempts 0 (o.reattempts.limit ≠ 0)
  requireCount .firstReattempts 0 (o.firstReattempts.limit ≠ 0)
  requireScalar .reattemptFactor (.finite o.reattempts.factor) (InOpenUnit o.reattempts.factor)
  requireScalar .firstReattemptFactor (.finite o.firstReattempts.factor)
    (InOpenUnit o.firstReattempts.factor)
  requireScalar .initialStep (.finite o.search.initialStep)
    (Scalar.isFinite o.search.initialStep ∧ 0 < o.search.initialStep)
  requireCount .searchLimit 0 (o.search.limit ≠ some 0)
  return o

end Options

end ExactPenalty
