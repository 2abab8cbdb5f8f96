/-!
# Binary fractions

A finite double is `±m · 2^q` with natural `m`.  Everything that is printed is computed from `m` and
`q` in exact arithmetic.

* `BinaryFraction` — the magnitude of a finite double, read off its bits.
* `Ratio` — a quotient of naturals, with rounding to the nearest natural (`Ratio.round`).
* `Ratio.log10` — the decimal exponent of the leading digit.
-/

set_option autoImplicit false

namespace ExactPenalty

/-! ## Quotients -/

/-- A nonnegative quotient.  The denominator is not zero in any quotient made here. -/
structure Ratio where
  num : Nat
  den : Nat

namespace Ratio

/-- The nearest natural; a half goes to the even neighbour. -/
def round (r : Ratio) : Nat :=
  let q := r.num / r.den
  let rest := 2 * (r.num % r.den)
  if rest < r.den then q
  else if r.den < rest then q + 1
  else if q % 2 = 0 then q else q + 1

/-- The largest natural that is not above. -/
def floor (r : Ratio) : Nat := r.num / r.den

/-- The quotient divided by `10 ^ p`. -/
def divPow10 (r : Ratio) : (p : Int) → Ratio
  | .ofNat p => { r with den := r.den * Nat.pow 10 p }
  | .negSucc p => { r with num := r.num * Nat.pow 10 (p + 1) }

/-- At most. -/
def le (a b : Ratio) : Bool := decide (a.num * b.den ≤ b.num * a.den)

/-- Strictly less. -/
def lt (a b : Ratio) : Bool := decide (a.num * b.den < b.num * a.den)

/-- `10 ^ p` is at most the quotient. -/
def atLeastPow10 (r : Ratio) (p : Int) : Bool := decide (0 < (r.divPow10 p).floor)

/-- The exponent of the largest power of ten that is at most a positive quotient.  The binary
logarithms give it up to two units. -/
def log10 (r : Ratio) : Int :=
  let bits : Int := (r.num.log2 : Int) - (r.den.log2 : Int)
  let guess := Int.fdiv ((bits - 1) * 30103) 100000
  if r.atLeastPow10 (guess + 2) then guess + 2
  else if r.atLeastPow10 (guess + 1) then guess + 1
  else if r.atLeastPow10 guess then guess
  else guess - 1

/-- Rounding moves a quotient by at most one half. -/
theorem round_near (r : Ratio) (h : 0 < r.den) :
    2 * (r.round * r.den) ≤ 2 * r.num + r.den ∧ 2 * r.num ≤ 2 * (r.round * r.den) + r.den := by
  have hdiv := Nat.div_add_mod r.num r.den
  have hmod := Nat.mod_lt r.num h
  have hsucc : (r.num / r.den + 1) * r.den = r.num / r.den * r.den + r.den := by
    rw [Nat.add_mul, Nat.one_mul]
  have hcomm := Nat.mul_comm r.den (r.num / r.den)
  unfold round
  dsimp only
  split
  · constructor <;> omega
  · split
    · rw [hsucc]; constructor <;> omega
    · split
      · constructor <;> omega
      · rw [hsucc]; constructor <;> omega

end Ratio

/-! ## Doubles -/

/-- The number `mantissa · 2 ^ exponent`. -/
structure BinaryFraction where
  mantissa : Nat
  exponent : Int
  /-- The next smaller double is only half as far away as the next larger one. -/
  atPowerOfTwo : Bool

namespace BinaryFraction

/-- The magnitude of a finite double. -/
def ofFloat (x : Float) : BinaryFraction :=
  let bits := x.toBits.toNat
  let fraction : Nat := bits % Nat.pow 2 52
  let biased : Nat := bits / Nat.pow 2 52 % Nat.pow 2 11
  if biased = 0 then { mantissa := fraction, exponent := -1074, atPowerOfTwo := false }
  else
    { mantissa := Nat.pow 2 52 + fraction
      exponent := (biased : Int) - 1075
      atPowerOfTwo := decide (fraction = 0 ∧ 1 < biased) }

/-- A quarter of the last place, `quarters` times. -/
def quarters (b : BinaryFraction) (quarters : Nat) : Ratio :=
  match b.exponent - 2 with
  | .ofNat q => { num := quarters * Nat.pow 2 q, den := 1 }
  | .negSucc q => { num := quarters, den := Nat.pow 2 (q + 1) }

/-- The exact value. -/
def toRatio (b : BinaryFraction) : Ratio := b.quarters (4 * b.mantissa)

/-- The number lies in the interval of those whose nearest double is this one.  Its ends belong to it
if the mantissa is even. -/
def isNearestTo (b : BinaryFraction) (r : Ratio) : Bool :=
  let low := b.quarters (4 * b.mantissa - (if b.atPowerOfTwo then 1 else 2))
  let high := b.quarters (4 * b.mantissa + 2)
  if b.mantissa % 2 = 0 then low.le r && r.le high else low.lt r && r.lt high

end BinaryFraction

/-- The sign bit is set. -/
def hasMinus (x : Float) : Bool := decide (Nat.pow 2 63 ≤ x.toBits.toNat)

end ExactPenalty
