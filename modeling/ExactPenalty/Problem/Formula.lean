import ExactPenalty.Evaluation

/-!
# Functions given by formulas

A formula is built from numbers and coordinates by arithmetic, maxima, minima, absolute values and
square roots.  It is evaluated together with its gradient, by the rules of differentiation; where it
has a kink, the gradient is that of the branch that gave the value.

* `Formula` — the formulas.
* `Jet` — a value with a gradient, and the operations on them.
* `Formula.jet` — a formula at a point.
-/

set_option autoImplicit false

namespace ExactPenalty

open Scalar Linear

/-! ## Formulas -/

/-- The operations on one argument. -/
inductive UnaryOp where
  | abs | negate | square | sqrt
  deriving DecidableEq, Repr

/-- The operations on two arguments. -/
inductive BinaryOp where
  | add | sub | mul | div | max | min
  deriving DecidableEq, Repr

/-- A function of the coordinates. -/
inductive Formula (R : Type) where
  | number (c : R)
  | coordinate (i : Nat)
  | unary (op : UnaryOp) (a : Formula R)
  | binary (op : BinaryOp) (a b : Formula R)

/-- An operation on any number of arguments, grouped to the left. -/
def Formula.chain {R : Type} (op : BinaryOp) (first : Formula R) (rest : List (Formula R)) :
    Formula R :=
  rest.foldl (.binary op) first

/-! ## Values with gradients -/

/-- The value of a function at a point, and its gradient there. -/
structure Jet (R : Type) (n : Nat) where
  value : R
  grad : Vector R n

variable {R : Type} [Scalar R] {n : Nat}

namespace Jet

/-- A gradient computed coordinate by coordinate from those of one argument. -/
def map (f : R → R) (a : Jet R n) : Vector R n := Vector.ofFn fun i ↦ f (a.grad i)

/-- A gradient computed coordinate by coordinate from those of two arguments. -/
def zip (f : R → R → R) (a b : Jet R n) : Vector R n := Vector.ofFn fun i ↦ f (a.grad i) (b.grad i)

/-- An operation on one argument. -/
def unary : UnaryOp → Jet R n → Jet R n
  | .abs, a => if 0 ≤ a.value then a else ⟨-a.value, map (fun g ↦ -g) a⟩
  | .negate, a => ⟨-a.value, map (fun g ↦ -g) a⟩
  | .square, a => ⟨a.value * a.value, map (fun g ↦ (1 + 1) * a.value * g) a⟩
  | .sqrt, a =>
    let r := Scalar.sqrt a.value
    ⟨r, map (fun g ↦ g / ((1 + 1) * r)) a⟩

/-- An operation on two arguments. -/
def binary : BinaryOp → Jet R n → Jet R n → Jet R n
  | .add, a, b => ⟨a.value + b.value, zip (· + ·) a b⟩
  | .sub, a, b => ⟨a.value - b.value, zip (· - ·) a b⟩
  | .mul, a, b => ⟨a.value * b.value, zip (fun ga gb ↦ a.value * gb + ga * b.value) a b⟩
  | .div, a, b =>
    ⟨a.value / b.value,
      zip (fun ga gb ↦ (ga * b.value - a.value * gb) / (b.value * b.value)) a b⟩
  | .max, a, b => if a.value < b.value then b else a
  | .min, a, b => if b.value < a.value then b else a

end Jet

/-- Value and gradient of a formula at a point.  A coordinate that the point does not have is zero
everywhere. -/
def Formula.jet (x : Vector R n) : Formula R → Jet R n
  | number c => ⟨c, Vector.replicate n 0⟩
  | coordinate i =>
    ⟨(x[i]?).getD 0, Vector.ofFn fun j : Fin n ↦ if j.val = i then 1 else 0⟩
  | unary op a => .unary op (a.jet x)
  | binary op a b => .binary op (a.jet x) (b.jet x)

end ExactPenalty
