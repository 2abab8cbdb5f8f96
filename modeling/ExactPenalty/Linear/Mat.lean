import ExactPenalty.Linear.Vec

/-!
# Matrices

A matrix is the vector of its rows.  A product of a matrix with a vector sums every row in lanes;
products of two matrices, and products with a transposed matrix, are summed from left to right.
-/

set_option autoImplicit false

namespace ExactPenalty

open Scalar Linear

/-- An `n × m` matrix, given by its rows. -/
abbrev Mat (R : Type) (n m : Nat) : Type := Vector (Vector R m) n

namespace Mat

variable {R : Type} [Scalar R] {n m k : Nat}

/-- The matrix with the given entries. -/
@[specialize] def ofFn (entry : Fin n → Fin m → R) : Mat R n m :=
  Vector.ofFn fun i ↦ Vector.ofFn fun j ↦ entry i j

/-- The identity matrix. -/
@[specialize] def identity (R : Type) [Scalar R] (n : Nat) : Mat R n n :=
  ofFn fun i j ↦ if i = j then 1 else 0

/-- The matrix with the given columns. -/
@[specialize] def ofColumns (columns : Vector (Vector R n) m) : Mat R n m :=
  ofFn fun i j ↦ columns j i

/-- Column `j`. -/
@[specialize] def column (a : Mat R n m) (j : Fin m) : Vector R n := a.map (·[j])

/-- The product with a vector, every row summed in lanes. -/
@[specialize] def mulVec (a : Mat R n m) (v : Vector R m) : Vector R n := a.map (dot · v)

/-- The product of two matrices. -/
@[specialize] def mul (a : Mat R n m) (b : Mat R m k) : Mat R n k :=
  a.map fun row ↦ Vector.ofFn fun j ↦ plainSum fun l : Fin m ↦ row l * b l j

/-- Every entry multiplied by a scalar on the right. -/
@[specialize] def scaled (a : Mat R n m) (c : R) : Mat R n m := a.map (scale · c)

/-- Every entry is finite. -/
@[specialize] def isFinite (a : Mat R n m) : Bool := a.all allFinite

/-- The matrix averaged with its transpose.  Both halves get the same number, so the result is
symmetric whatever the arithmetic does. -/
@[specialize] def symmetrized (a : Mat R n n) : Mat R n n :=
  ofFn fun i j ↦
    if i < j then 0.5 * (a i j + a j i)
    else if j < i then 0.5 * (a j i + a i j)
    else a i j

end Mat

end ExactPenalty
