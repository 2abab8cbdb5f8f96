/-!
# Scalars

The whole library is written once, over an arbitrary type of scalars: it runs on `Float`, and the
same definitions can be read over the real numbers, where the statements of the theory live.

* `Scalar R` — the arithmetic the algorithms use: field operations, a decidable order, absolute
  value, square root, and the two tests that tell an ordinary number from an infinity or a NaN.
* `larger`, `smaller` — maximum and minimum that ignore an operand which is not a number.
* `epsilon` — the distance from one to the next double, `2⁻⁵²`.

Nothing here assumes a law.  In floating point a comparison with NaN is false, so no test below may
be replaced by the negation of the opposite one.
-/

set_option autoImplicit false

namespace ExactPenalty

/-- The arithmetic of the library.  No law is required: rounding, overflow and NaN are allowed. -/
class Scalar (R : Type) extends Add R, Sub R, Mul R, Div R, Neg R, Zero R, One R, LT R, LE R,
    NatCast R, OfScientific R where
  /-- The absolute value. -/
  protected abs : R → R
  /-- The square root. -/
  sqrt : R → R
  /-- Neither infinite nor NaN. -/
  isFinite : R → Bool
  /-- Not a number. -/
  isNaN : R → Bool
  /-- The base-two logarithm, rounded to the nearest natural number with halves away from zero;
  zero where the logarithm is negative or not a number. -/
  log2Nat : R → Nat
  decLt : ∀ a b : R, Decidable (a < b)
  decLe : ∀ a b : R, Decidable (a ≤ b)

namespace Scalar

variable {R : Type} [Scalar R]

instance instDecidableLt (a b : R) : Decidable (a < b) := decLt a b

instance instDecidableLe (a b : R) : Decidable (a ≤ b) := decLe a b

/-- The distance from one to the next larger double, `2⁻⁵²`. -/
@[inline] def epsilon : R := 1 / ((4503599627370496 : Nat) : R)

/-- What the arithmetic answers for one over zero: infinity in floating point. -/
@[inline] def overZero : R := 1 / 0

/-- The larger of two numbers; an operand that is not a number is ignored. -/
@[inline] def larger (a b : R) : R := if a < b ∨ isNaN a then b else a

/-- The smaller of two numbers; an operand that is not a number is ignored. -/
@[inline] def smaller (a b : R) : R := if b < a ∨ isNaN a then b else a

/-- Equality as the order sees it: the two zeros are the same, and NaN is the same as nothing. -/
@[inline] def Same (a b : R) : Prop := a ≤ b ∧ b ≤ a

instance instDecidableSame (a b : R) : Decidable (Same a b) :=
  inferInstanceAs (Decidable (a ≤ b ∧ b ≤ a))

end Scalar

/-- Double precision.  A logarithm too large for 64 bits counts as the largest 64-bit number. -/
instance instScalarFloat : Scalar Float where
  zero := 0.0
  one := 1.0
  natCast n := Float.ofNat n
  ofScientific := OfScientific.ofScientific
  abs := Float.abs
  sqrt := Float.sqrt
  isFinite := Float.isFinite
  isNaN := Float.isNaN
  log2Nat x := x.log2.round.toUInt64.toNat
  decLt := inferInstance
  decLe := inferInstance

end ExactPenalty
