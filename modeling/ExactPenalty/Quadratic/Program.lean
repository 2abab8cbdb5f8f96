import ExactPenalty.Extended
import ExactPenalty.Linear.Mat

/-!
# Quadratic programs

The method asks for the least value of `½ yᵀ Q y + cᵀ y` over one of two kinds of sets: a box, whose
bounds may be infinite, or the unit simplex.

* `FeasibleSet` — the two kinds of sets, with `FeasibleSet.project`, the nearest point of the set.
* `QuadraticProgram` — the program, its objective, and `QuadraticProgram.check`, what is asked of
  the data before anything is computed.
* `QpError` — why a program has no answer.  A solver from outside may use all of them.

The dimension is part of the type.  `QuadraticProgram.ofRows?` reads a program from plain arrays and
reports the sizes that disagree.
-/

set_option autoImplicit false

namespace ExactPenalty

open Scalar Linear

/-- Why a quadratic program was not solved. -/
inductive QpError where
  | dimensionMismatch (expected rows cols : Nat)
  /-- Some entry is infinite or not a number. -/
  | nonFiniteData
  /-- Some lower bound lies above its upper bound. -/
  | infeasible
  /-- The solver refused the program. -/
  | setup (reason : String)
  /-- The solver gave up, with the status it reports. -/
  | unsolved (status : String)
  deriving DecidableEq, Repr

/-- A box, or the set of nonnegative weights of sum one. -/
inductive FeasibleSet (R : Type) (m : Nat) where
  | box (lower upper : Vector (Extended R) m)
  | simplex

/-- Minimise `½ yᵀ Q y + cᵀ y` over a set. -/
structure QuadraticProgram (R : Type) (m : Nat) where
  hessian : Mat R m m
  linear : Vector R m
  feasible : FeasibleSet R m

variable {R : Type} [Scalar R] {m : Nat}

/-! ## Projection -/

/-- The amount to subtract from every entry before cutting off at zero, read off the entries in
descending order: the last one that stays above the amount it would leave decides.  `k` entries of
total `total` were seen before, and `θ` is the best amount so far. -/
def simplexShift (k : Nat) (total θ : R) : List R → R
  | [] => θ
  | v :: rest =>
    let total := total + v
    let candidate := (total - 1) / ((k : R) + 1)
    simplexShift (k + 1) total (if 0 < v - candidate then candidate else θ) rest

/-- The entries in descending order; one that is not a number comes first. -/
def descending (y : Vector R m) : List R :=
  y.toList.mergeSort fun a b ↦ isNaN a || decide (b ≤ a)

/-- The nearest point of the unit simplex. -/
def projectSimplex (y : Vector R m) : Vector R m :=
  let θ := simplexShift 0 0 0 (descending y)
  y.map fun v ↦ larger (v - θ) 0

namespace FeasibleSet

/-- The lower bound of a component. -/
def lowerAt : FeasibleSet R m → Fin m → Extended R
  | box lower _, i => lower i
  | simplex, _ => .finite 0

/-- The upper bound of a component. -/
def upperAt : FeasibleSet R m → Fin m → Extended R
  | box _ upper, i => upper i
  | simplex, _ => .posInf

/-- The nearest point of the set. -/
def project : FeasibleSet R m → Vector R m → Vector R m
  | box lower upper, y => Vector.ofFn fun i ↦ (upper i).smaller ((lower i).larger (y i))
  | simplex, y => projectSimplex y

/-- Some point of the set. -/
def somePoint : FeasibleSet R m → Vector R m
  | box lower upper => (box lower upper).project (Vector.replicate m 0)
  | simplex => Vector.replicate m (1 / (m : R))

/-- The set is a box with a lower bound above its upper bound. -/
def isEmpty : FeasibleSet R m → Bool
  | box lower upper => Fin.foldl m (fun found i ↦ found || decide ((lower i).Crosses (upper i))) false
  | simplex => false

end FeasibleSet

/-! ## Programs -/

namespace QuadraticProgram

/-- The value that is minimised. -/
def objective (qp : QuadraticProgram R m) (y : Vector R m) : R :=
  0.5 * dot y (qp.hessian.mulVec y) + dot qp.linear y

/-- The set is not empty and the data are finite; the first fault is reported. -/
def check (qp : QuadraticProgram R m) : Except QpError Unit :=
  if qp.feasible.isEmpty then .error .infeasible
  else if qp.hessian.isFinite && allFinite qp.linear then .ok ()
  else .error .nonFiniteData

/-- The largest magnitude among the data. -/
def magnitude (qp : QuadraticProgram R m) : R :=
  let largest (acc : R) (v : Vector R m) : R := v.foldl (fun acc x ↦ larger acc (Scalar.abs x)) acc
  largest (qp.hessian.foldl largest 0) qp.linear

/-- The same minimisers, with all data divided by a positive number. -/
def dividedBy (qp : QuadraticProgram R m) (c : R) : QuadraticProgram R m :=
  { qp with hessian := qp.hessian.map (·.map (· / c)), linear := qp.linear.map (· / c) }

/-- The rows as vectors of dimension `m`, if all of them have that size. -/
def sized? {α : Type} (m : Nat) (rows : Array (Array α)) : Option (Vector (Vector α m) m) := do
  let rows ← rows.mapM fun row ↦ if h : row.size = m then some (⟨row, h⟩ : Vector α m) else none
  if h : rows.size = m then some ⟨rows, h⟩ else none

/-- A program read from plain arrays, over a box if bounds are given and over the simplex if not.
The matrix must be square of the size of the linear term, and so must the bounds be. -/
def ofRows? (hessian : Array (Array R)) (linear : Array R)
    (bounds : Option (Array (Extended R) × Array (Extended R))) :
    Except QpError (QuadraticProgram R linear.size) :=
  match sized? linear.size hessian with
  | none =>
    .error (.dimensionMismatch linear.size hessian.size ((hessian[0]?.map Array.size).getD 0))
  | some matrix =>
    match bounds with
    | none => .ok ⟨matrix, ⟨linear, rfl⟩, .simplex⟩
    | some (lower, upper) =>
      if h : lower.size = linear.size ∧ upper.size = linear.size then
        .ok ⟨matrix, ⟨linear, rfl⟩, .box ⟨lower, h.1⟩ ⟨upper, h.2⟩⟩
      else .error (.dimensionMismatch linear.size lower.size upper.size)

end QuadraticProgram

end ExactPenalty
