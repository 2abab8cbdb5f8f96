import ExactPenalty.Decimal
import ExactPenalty.Run

/-!
# Error messages

The wording of every error.  Numbers in messages are written with the shortest digits that read back
and without an exponent, slopes with four significant digits.

* `Setting.key`, `Setting.range` — the name of an option and what it expects.
* `OptionsError.message`, `QpError.message`, `DirectionError.message`, `SearchError.message`,
  `RunError.message`.
-/

set_option autoImplicit false

namespace ExactPenalty

variable {n : Nat}

/-! ## Options -/

namespace Setting

/-- The name under which an option is set. -/
def key : Setting → String
  | mu0 => "mu0"
  | optTol => "opt_tol"
  | relTol => "rel_tol"
  | ineqTol => "viol_ineq_tol"
  | eqTol => "viol_eq_tol"
  | target => "fvalquit"
  | bundleSize => "ngrad"
  | bundleRadius => "evaldist"
  | damping => "bfgs_damping"
  | ladderMin => "min_fallback_level"
  | ladderMax => "max_fallback_level"
  | maxRandomAttempts => "max_random_attempts"
  | ineqMargin => "steering_ineq_margin"
  | violationFraction => "steering_c_viol"
  | shrinkFactor => "steering_c_mu"
  | threshold => "regularize_threshold"
  | decrease => "wolfe1"
  | curvature => "wolfe2"
  | reattempts => "linesearch_reattempts"
  | firstReattempts => "linesearch_reattempts_x0"
  | reattemptFactor => "linesearch_c_mu"
  | firstReattemptFactor => "linesearch_c_mu_x0"
  | initialStep => "init_step_size"
  | searchLimit => "linesearch_maxit"

/-- What is expected of an option. -/
def range : Setting → String
  | mu0 | initialStep => "a positive finite real"
  | optTol | relTol | ineqTol | eqTol | bundleRadius => "a non-negative real"
  | target => "a real or -inf"
  | bundleSize | maxRandomAttempts | reattempts | firstReattempts => "a positive integer"
  | damping => "a real in [0,1]"
  | ladderMin | ladderMax => "an integer in [0,4]"
  | ineqMargin => "a non-negative real or inf"
  | violationFraction | shrinkFactor | reattemptFactor | firstReattemptFactor => "a real in (0,1)"
  | threshold => "a real >= 1 or inf"
  | decrease => "a real in (0,0.5]"
  | curvature => "a real in [wolfe1,1)"
  | searchLimit => "a positive integer or inf"

end Setting

/-- A scalar or an end of the line in positional digits. -/
def Extended.text : Extended Float → String
  | negInf => "-inf"
  | finite x => positional x
  | posInf => "inf"

/-- The offending value. -/
def SettingValue.text : SettingValue Float → String
  | scalar x => x.text
  | count n => toString n

/-- Why a set of options is refused. -/
def OptionsError.message : OptionsError Float → String
  | outOfRange setting value =>
    "option `" ++ setting.key ++ "` = " ++ value.text ++ " is out of range; expected "
      ++ setting.range
  | emptyLadder min max =>
    "fallback range is empty: min_fallback_level (" ++ toString min
      ++ ") must not exceed max_fallback_level (" ++ toString max ++ ")"
  | constantsOutOfOrder decrease curvature =>
    "wolfe2 (" ++ positional curvature ++ ") must be at least wolfe1 (" ++ positional decrease
      ++ ")"

/-! ## Parts of the method -/

/-- Why a quadratic program has no answer. -/
def QpError.message : QpError → String
  | dimensionMismatch expected rows cols =>
    "QP dimensions disagree: expected " ++ toString expected ++ ", got " ++ toString rows ++ "x"
      ++ toString cols
  | nonFiniteData => "QP data contains NaN or infinite entries"
  | infeasible => "QP feasible set is empty"
  | setup reason => "QP solver rejected the problem: " ++ reason
  | unsolved status => "QP solver stopped with status " ++ status

/-- A number with four significant digits. -/
def brief (x : Float) : String := scientific 3 x

/-- Why a rung yields no direction. -/
def DirectionError.message : DirectionError Float n → String
  | qp cause => "steering QP failed: " ++ cause.message
  | nonDescent d =>
    "direction is not a descent direction (gᵀd = " ++ brief d.slope ++ ")"
  | degenerate => "direction is zero or not finite"

/-- Why a line search failed. -/
def SearchError.message (e : SearchError Float n) : String :=
  let count := toString e.evaluations
  match e.reason with
  | .notBracketed _ =>
    "no step violating sufficient decrease was found after " ++ count
      ++ " evaluations; the penalty may be unbounded below"
  | .wolfeNotSatisfied _ _ =>
    "the curvature condition could not be satisfied inside the bracket after " ++ count
      ++ " evaluations"
  | .armijoNotSatisfied =>
    "backtracking did not find sufficient decrease after " ++ count ++ " evaluations"
  | .nonDescent =>
    "no acceptable step along a non-descent direction after " ++ count ++ " evaluations"
  | .budgetExhausted =>
    "evaluation budget exhausted after " ++ count ++ " line search evaluations"

/-- Why a run cannot begin. -/
def RunError.message : RunError Float → String
  | invalidOptions cause => "invalid options: " ++ cause.message
  | emptyInitialPoint => "the initial point is empty"
  | nonFiniteInitialPoint =>
    "the objective or constraints are not finite at the initial point"
  | dimensionMismatch n =>
    "evaluation at the initial point has inconsistent dimensions for " ++ toString n
      ++ " variables"

end ExactPenalty
