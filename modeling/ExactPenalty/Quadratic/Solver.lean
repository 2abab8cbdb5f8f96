import ExactPenalty.Quadratic.ActiveSet

/-!
# Solving quadratic programs

A program is solved in two steps.  An estimate of the minimiser is taken from any method at all and
projected onto the set.  The polish then guesses from it which components sit at a bound, solves the
linear system for the others exactly, and keeps the result only if it is feasible and no worse.

`QpMethod` names the parts that are free to vary: the estimate, the linear solver and the distance
below which a component counts as sitting at its bound.  Whatever they do, an answer lies in the set
and its objective is not above that of the projected estimate, up to rounding.
-/

set_option autoImplicit false

namespace ExactPenalty

open Scalar Linear

/-- The parts of a solver that are free to vary. -/
structure QpMethod (R : Type) where
  /-- An approximate minimiser. -/
  estimate : {m : Nat} → QuadraticProgram R m → Except QpError (Vector R m)
  solveLinear : LinearMethod R
  /-- Distance from a bound below which a component counts as sitting at it. -/
  activeTolerance : R

variable {R : Type} [Scalar R] {m : Nat}

/-- Exchanges of active bounds, elimination, and the tolerance `10⁻⁷`. -/
def QpMethod.exchange (rounds : Nat) : QpMethod R where
  estimate := exchangeMinimizer rounds
  solveLinear := solveLinear?
  activeTolerance := 1e-7

/-- The exchange method with the usual number of rounds. -/
def QpMethod.standard : QpMethod R := .exchange 200

namespace QpMethod

/-- The bound at which a component counts as sitting, the lower one first. -/
def activeBound? (method : QpMethod R) (lower upper : Extended R) (y : R) : Option R :=
  let near (distance bound : R) : Prop := distance ≤ method.activeTolerance * (1 + Scalar.abs bound)
  let below := lower.finite?.filter fun l ↦ decide (near (y - l) l)
  let above := upper.finite?.filter fun u ↦ decide (near (u - y) u)
  below <|> above

/-- The coordinates for which a test fails. -/
def coordinatesWhere (test : Fin m → Bool) : List (Fin m) := (List.finRange m).filter test

/-- Components near a bound are put on it, and the others, if there are any, where the objective is
stationary over them, if that point lies in the box. -/
def polishBox? (method : QpMethod R) (qp : QuadraticProgram R m)
    (lower upper : Vector (Extended R) m) (y : Vector R m) : Option (Vector R m) := do
  let bound? (i : Fin m) : Option R := method.activeBound? (lower i) (upper i) (y i)
  let free := coordinatesWhere fun i ↦ (bound? i).isNone
  let fixed := Vector.ofFn fun i ↦ (bound? i).getD (y i)
  if free.isEmpty then some fixed else
    let z ← qp.stationary? method.solveLinear free 1 fixed
    let inside (i : Fin m) : Bool :=
      Scalar.isFinite (z i) && decide ((lower i).AtMost (z i) ∧ (upper i).AtLeast (z i))
    if free.all inside then some z else none

/-- The weights above the tolerance are put where the objective is stationary over them, small
negative ones are cut off, and the rest is normalised. -/
def polishSimplex? (method : QpMethod R) (qp : QuadraticProgram R m) (y : Vector R m) :
    Option (Vector R m) := do
  let support := coordinatesWhere fun i ↦ decide (method.activeTolerance < y i)
  if support.isEmpty then none else
    let z ← qp.stationary? method.solveLinear support 1 (Vector.replicate m 0)
    if support.all fun i ↦ Scalar.isFinite (z i) && !decide (z i < -method.activeTolerance) then
      let z := z.map fun v ↦ larger v 0
      let total := laneSum fun i : Fin m ↦ z i
      if total ≤ 0 then none else some (z.map (· / total))
    else none

/-- The polished point if there is one and it is no worse than `y`, and `y` otherwise. -/
def polish (method : QpMethod R) (qp : QuadraticProgram R m) (y : Vector R m) : Vector R m :=
  let candidate := match qp.feasible with
    | .box lower upper => method.polishBox? qp lower upper y
    | .simplex => method.polishSimplex? qp y
  let current := qp.objective y
  match candidate with
  | some z => if qp.objective z ≤ current + epsilon * (1 + Scalar.abs current) then z else y
  | none => y

/-- The minimiser of a convex program.  The estimate is made on data of unit magnitude, which does
not move the minimiser; a program without any data is solved by some point of the set. -/
def solve (method : QpMethod R) (qp : QuadraticProgram R m) : Except QpError (Vector R m) := do
  qp.check
  if m = 0 then return Vector.replicate m 0
  let magnitude := qp.magnitude
  if Same magnitude 0 then return qp.feasible.somePoint
  let y ← method.estimate (qp.dividedBy magnitude)
  if allFinite y then return method.polish qp (qp.feasible.project y)
  else throw .nonFiniteData

end QpMethod

end ExactPenalty
