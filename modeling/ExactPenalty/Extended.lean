import ExactPenalty.Scalar

/-!
# Scalars with two ends

A tolerance, a target or a bound may be infinite even where the arithmetic itself has no infinity:
"no limit" is an answer of its own.  `Extended R` adds a lower and an upper end to the scalars.

* `Extended.AtLeast`, `Extended.AtMost` — a scalar compared with a bound above, or below, it.
* `Extended.Crosses` — a lower bound that lies above its upper bound.
* `Extended.larger`, `Extended.smaller` — a scalar pushed up to, or down to, a bound.

A scalar that is itself infinite or NaN is compared as floating point compares it, so the answers
agree with those that an infinite bound inside the arithmetic would give.
-/

set_option autoImplicit false

namespace ExactPenalty

/-- A scalar, or one of the two ends of the line. -/
inductive Extended (R : Type) where
  | negInf
  | finite (x : R)
  | posInf
  deriving Repr

namespace Extended

variable {R : Type} [Scalar R]

/-- `e.AtLeast x`: the scalar `x` is at most `e`.  Never true of NaN. -/
def AtLeast : Extended R → R → Prop
  | negInf, x => x < 0 ∧ Scalar.isFinite x = false
  | finite b, x => x ≤ b
  | posInf, x => Scalar.isNaN x = false

instance instDecidableAtLeast : (e : Extended R) → (x : R) → Decidable (e.AtLeast x)
  | negInf, x => inferInstanceAs (Decidable (x < 0 ∧ Scalar.isFinite x = false))
  | finite b, x => inferInstanceAs (Decidable (x ≤ b))
  | posInf, x => inferInstanceAs (Decidable (Scalar.isNaN x = false))

/-- `e.AtMost x`: the scalar `x` is at least `e`.  Never true of NaN. -/
def AtMost : Extended R → R → Prop
  | negInf, x => Scalar.isNaN x = false
  | finite b, x => b ≤ x
  | posInf, x => 0 < x ∧ Scalar.isFinite x = false

instance instDecidableAtMost : (e : Extended R) → (x : R) → Decidable (e.AtMost x)
  | negInf, x => inferInstanceAs (Decidable (Scalar.isNaN x = false))
  | finite b, x => inferInstanceAs (Decidable (b ≤ x))
  | posInf, x => inferInstanceAs (Decidable (0 < x ∧ Scalar.isFinite x = false))

/-- The lower bound lies strictly above the upper bound, so no scalar satisfies both. -/
def Crosses : (lower upper : Extended R) → Prop
  | finite l, finite u => u < l
  | finite l, negInf => Scalar.isFinite l = true
  | posInf, finite u => Scalar.isFinite u = true
  | posInf, negInf => True
  | negInf, _ => False
  | _, posInf => False

instance instDecidableCrosses : (l u : Extended R) → Decidable (l.Crosses u)
  | finite l, finite u => inferInstanceAs (Decidable (u < l))
  | finite l, negInf => inferInstanceAs (Decidable (Scalar.isFinite l = true))
  | posInf, finite u => inferInstanceAs (Decidable (Scalar.isFinite u = true))
  | posInf, negInf => inferInstanceAs (Decidable True)
  | negInf, negInf => inferInstanceAs (Decidable False)
  | negInf, finite _ => inferInstanceAs (Decidable False)
  | negInf, posInf => inferInstanceAs (Decidable False)
  | finite _, posInf => inferInstanceAs (Decidable False)
  | posInf, posInf => inferInstanceAs (Decidable False)

/-- Strictly above zero. -/
def Positive : Extended R → Prop
  | negInf => False
  | finite x => 0 < x
  | posInf => True

instance instDecidablePositive : (e : Extended R) → Decidable e.Positive
  | negInf => inferInstanceAs (Decidable False)
  | finite x => inferInstanceAs (Decidable (0 < x))
  | posInf => inferInstanceAs (Decidable True)

/-- Not a number. -/
def isNaN : Extended R → Bool
  | finite x => Scalar.isNaN x
  | _ => false

/-- One of the two ends. -/
def isInfinite : Extended R → Bool
  | finite _ => false
  | _ => true

/-- The scalar, if there is an ordinary one. -/
def finite? : Extended R → Option R
  | finite x => if Scalar.isFinite x then some x else none
  | _ => none

/-- A bound multiplied by a positive scalar. -/
def scaled : Extended R → R → Extended R
  | negInf, _ => negInf
  | finite b, s => finite (b * s)
  | posInf, _ => posInf

/-- The larger of a scalar and a bound; one that is not a number is ignored. -/
def larger : Extended R → R → R
  | negInf, x => if Scalar.isNaN x then -Scalar.overZero else x
  | finite b, x => Scalar.larger x b
  | posInf, _ => Scalar.overZero

/-- The smaller of a scalar and a bound; one that is not a number is ignored. -/
def smaller : Extended R → R → R
  | negInf, _ => -Scalar.overZero
  | finite b, x => Scalar.smaller x b
  | posInf, x => if Scalar.isNaN x then Scalar.overZero else x

end Extended

end ExactPenalty
