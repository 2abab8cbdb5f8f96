import ExactPenalty.Quadratic.Program

/-!
# The program on a set of free coordinates

Once it is known which components of a minimiser sit at a bound, the others solve a linear system:
the objective is stationary over the free coordinates.  Over a box that is

  `Q_FF z_F = −(c_F + Q_FB z_B)`,

and over the simplex, where the free weights must also make up the total, the same system bordered
by a row and a column of ones.
-/

set_option autoImplicit false

namespace ExactPenalty

open Scalar Linear

/-- A way to solve square systems of every dimension; `none` if it finds no solution. -/
abbrev LinearMethod (R : Type) : Type := {k : Nat} → Mat R k k → Vector R k → Option (Vector R k)

variable {R : Type} [Scalar R] {m : Nat}

namespace QuadraticProgram

/-- The right-hand side of the equation of coordinate `i`: the linear term and the contribution of
the coordinates that are not free. -/
def reducedRhs (qp : QuadraticProgram R m) (free : List (Fin m)) (z : Vector R m) (i : Fin m) : R :=
  Fin.foldl m (fun r j ↦ if j ∈ free then r else r - qp.hessian i j * z j) (-qp.linear i)

/-- What the free weights have to add up to if the whole makes up `total`. -/
def reducedTotal (free : List (Fin m)) (total : R) (z : Vector R m) : R :=
  Fin.foldl m (fun r j ↦ if j ∈ free then r else r - z j) total

/-- The matrix `Q_FF`. -/
def reducedMatrix (qp : QuadraticProgram R m) (free : List (Fin m)) :
    Mat R free.length free.length :=
  Mat.ofFn fun a b ↦ qp.hessian (free.get a) (free.get b)

/-- The matrix `Q_FF` bordered by ones. -/
def borderedMatrix (qp : QuadraticProgram R m) (free : List (Fin m)) :
    Mat R (free.length + 1) (free.length + 1) :=
  Mat.ofFn fun a b ↦
    if ha : a < free.length then
      if hb : b < free.length then qp.hessian (free.get ⟨a, ha⟩) (free.get ⟨b, hb⟩) else 1
    else if b < free.length then 1 else 0

/-- The point `z` with its free coordinates replaced. -/
def replaceFree (free : List (Fin m)) (z : Vector R m) (value : Fin free.length → R) :
    Vector R m :=
  Fin.foldl free.length (fun z a ↦ replaced z (free.get a) (value a)) z

/-- The point that agrees with `z` outside the free coordinates and at which the objective is
stationary over them; over the simplex its entries add up to `total`. -/
def stationary? (solve : LinearMethod R) (qp : QuadraticProgram R m) (free : List (Fin m))
    (total : R) (z : Vector R m) : Option (Vector R m) :=
  match qp.feasible with
  | .box _ _ =>
    (solve (qp.reducedMatrix free) (Vector.ofFn fun a ↦ qp.reducedRhs free z (free.get a))).map
      fun x ↦ replaceFree free z fun a ↦ x a
  | .simplex =>
    (solve (qp.borderedMatrix free) (Vector.ofFn fun a ↦
      if ha : a < free.length then qp.reducedRhs free z (free.get ⟨a, ha⟩)
      else reducedTotal free total z)).map
      fun x ↦ replaceFree free z fun a ↦ x a.castSucc

end QuadraticProgram

end ExactPenalty
