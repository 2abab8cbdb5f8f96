import ExactPenalty.Scalar

/-!
# Vectors

Vectors of scalars are `Vector R n`, with the componentwise addition, subtraction and negation of
the core library.  This file adds sums, inner products and norms.

In floating point the order of a sum matters, so it is part of the definition.  A sum of fewer than
eight terms is taken from left to right.  A longer one keeps eight lanes: lane `j` adds the terms
`j`, `j + 8`, `j + 16`, … of the full blocks of eight, the lanes are then added pairwise (0 with 4,
1 with 5, 2 with 6, 3 with 7), and the terms after the last full block come last.  `laneSum` is this
sum and `plainSum` the one from left to right; over the real numbers both are the sum.
-/

set_option autoImplicit false

namespace ExactPenalty

open Scalar

/-- A vector is applied to an index like a function; so a matrix is applied to two. -/
instance instCoeFunVector {α : Type} {n : Nat} : CoeFun (Vector α n) fun _ ↦ Fin n → α :=
  ⟨Vector.get⟩

namespace Linear

variable {R : Type} [Scalar R] {n : Nat}

/-! ## Sums -/

/-- The sum from left to right. -/
@[specialize] def plainSum (term : Fin n → R) : R :=
  Fin.foldl n (fun acc i ↦ acc + term i) 0

/-- One lane of a sum in lanes: the terms `lane`, `lane + 8`, … of the full blocks of eight. -/
@[specialize] def lane (term : Fin n → R) (lane : Fin 8) : R :=
  Fin.foldl (n / 8) (fun acc b ↦ acc + term ⟨8 * b + lane, by omega⟩) 0

/-- The sum in eight lanes. -/
@[specialize] def laneSum (term : Fin n → R) : R :=
  let lanes := Fin.foldl 4 (fun acc j ↦ acc + (lane term ⟨j, by omega⟩ + lane term ⟨j + 4, by omega⟩)) 0
  Fin.foldl (n % 8) (fun acc i ↦ acc + term ⟨8 * (n / 8) + i, by omega⟩) lanes

/-! ## Components -/

/-- A vector with one component replaced. -/
@[inline] def replaced {α : Type} (v : Vector α n) (i : Fin n) (x : α) : Vector α n :=
  v.set i x i.isLt

/-- A vector with two components exchanged. -/
@[inline] def exchanged {α : Type} (v : Vector α n) (i j : Fin n) : Vector α n :=
  v.swap i j i.isLt j.isLt

/-! ## Inner products and norms -/

/-- The inner product, summed in lanes. -/
@[specialize] def dot (u v : Vector R n) : R := laneSum fun i : Fin n ↦ u i * v i

/-- The inner product, summed from left to right. -/
@[specialize] def plainDot (u v : Vector R n) : R := plainSum fun i : Fin n ↦ u i * v i

/-- The Euclidean norm. -/
@[specialize] def norm₂ (v : Vector R n) : R := sqrt (dot v v)

/-- Every component multiplied by a scalar on the right. -/
@[specialize] def scale (v : Vector R n) (c : R) : Vector R n := v.map (· * c)

/-- Every component is finite. -/
@[specialize] def allFinite (v : Vector R n) : Bool := v.all isFinite

/-- The point at distance `t` along the direction `d`. -/
@[specialize] def along (x d : Vector R n) (t : R) : Vector R n := x + scale d t

end Linear

end ExactPenalty
