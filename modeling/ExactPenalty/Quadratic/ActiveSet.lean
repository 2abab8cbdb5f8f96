import ExactPenalty.Linear.Elimination
import ExactPenalty.Quadratic.Reduced

/-!
# Minimisers by exchange of active bounds

`exchangeMinimizer` minimises a convex quadratic program by moving one coordinate at a time off its
bound.  Between two moves the point minimises the objective over its free coordinates; the
coordinate whose slope promises the most is then moved, while the free ones follow so that their
slopes stay zero.  The move ends at the minimum along that curve, where the coordinate becomes free
too, or at the first bound that is met: there the coordinate that met it is fixed, and the move goes
on with the others.

The matrix of the free coordinates stays regular, because a coordinate is freed only after a move
along which the objective really curves.  Along a direction without curvature the objective falls
all the way to a bound, and if there is none the program is unbounded.

Nothing is proved about the answer; it is checked and refined by what follows
(`ExactPenalty.Quadratic.Solver`).
-/

set_option autoImplicit false

namespace ExactPenalty

open Scalar Linear

variable {R : Type} [Scalar R] {m : Nat}

namespace Exchange

/-- A point, and the coordinates that are free to move. -/
structure State (R : Type) (m : Nat) where
  point : Vector R m
  free : List (Fin m)

/-- A coordinate that should leave its bound, upwards or downwards. -/
structure Move (R : Type) (m : Nat) where
  coordinate : Fin m
  up : Bool
  /-- How fast the objective falls along the move. -/
  gain : R

/-- How a move of one coordinate ended. -/
inductive Ended (R : Type) (m : Nat) where
  | at (state : State R m)
  | unbounded

/-- The gradient of the objective. -/
def gradient (qp : QuadraticProgram R m) (y : Vector R m) : Vector R m :=
  qp.hessian.mulVec y + qp.linear

/-- The common slope of the free coordinates: zero over a box, the multiplier of the total over the
simplex. -/
def multiplier (qp : QuadraticProgram R m) (s : State R m) (g : Vector R m) : R :=
  match qp.feasible, s.free with
  | .simplex, i :: rest =>
    (rest.foldl (fun acc j ↦ acc + g j) (g i)) / ((s.free.length : Nat) : R)
  | _, _ => 0

/-- The move that promises the most, if any promises more than rounding can feign. -/
def bestMove? (qp : QuadraticProgram R m) (s : State R m) : Option (Move R m) :=
  let g := gradient qp s.point
  let ν := multiplier qp s g
  let reach := s.point.foldl (fun acc x ↦ larger acc (Scalar.abs x)) 1
  let noise := epsilon * ((64 : Nat) : R) * reach
  Fin.foldl m (fun best i ↦
    if s.free.contains i then best else
      let slope := g i - ν
      let y := s.point i
      let upwards := decide (slope < 0) && !decide ((qp.feasible.upperAt i).AtMost y)
      let downwards := decide (0 < slope) && !decide ((qp.feasible.lowerAt i).AtLeast y)
      let gain := Scalar.abs slope
      let least := match best with
        | some b => b.gain
        | none => noise
      if (upwards || downwards) && decide (least < gain) then some ⟨i, decide (slope < 0), gain⟩ else best) none

/-- The direction of a move: the moved coordinate changes at unit rate, and the free ones follow. -/
def direction? (qp : QuadraticProgram R m) (free : List (Fin m)) (move : Move R m) :
    Option (Vector R m) :=
  let unit := replaced (Vector.replicate m (0 : R)) move.coordinate (if move.up then 1 else -1)
  ({ qp with linear := Vector.replicate m 0 } : QuadraticProgram R m).stationary?
    solveLinear? free 0 unit

/-- A bound that ends a move: how far away it is, which coordinate meets it, and its value. -/
structure Block (R : Type) (m : Nat) where
  distance : R
  coordinate : Fin m
  bound : R

/-- The first bound met from a point along a direction. -/
def firstBlock? (qp : QuadraticProgram R m) (y d : Vector R m) : Option (Block R m) :=
  Fin.foldl m (fun best i ↦
    let bound? := if d i < 0 then (qp.feasible.lowerAt i).finite?
      else if 0 < d i then (qp.feasible.upperAt i).finite? else none
    match bound? with
    | none => best
    | some bound =>
      let distance := larger ((bound - y i) / d i) 0
      match best with
      | some b => if distance < b.distance then some ⟨distance, i, bound⟩ else best
      | none => some ⟨distance, i, bound⟩) none

/-- The distance to the minimum of the objective along a direction, if the objective curves there by
more than rounding can feign. -/
def minimumAlong? (qp : QuadraticProgram R m) (d : Vector R m) (gain : R) : Option R :=
  let curvature := dot d (qp.hessian.mulVec d)
  let size := d.map Scalar.abs
  let magnitudes : Mat R m m := qp.hessian.map (·.map Scalar.abs)
  let bulk := dot size (magnitudes.mulVec size)
  if epsilon * ((8 : Nat) : R) * bulk < curvature then some (gain / curvature) else none

/-- The free coordinates put exactly where the objective is stationary over them. -/
def settle (qp : QuadraticProgram R m) (s : State R m) : State R m :=
  match qp.stationary? solveLinear? s.free 1 s.point with
  | some y => if allFinite y then { s with point := qp.feasible.project y } else s
  | none => s

/-- Carries a move through.  Every bound that is met on the way takes one coordinate out of the free
ones, so there are at most `budget` of them. -/
def carry (qp : QuadraticProgram R m) (move : Move R m) : (budget : Nat) → State R m → Ended R m
  | 0, s => .at s
  | budget + 1, s =>
    match direction? qp s.free move with
    | none => .at s
    | some d =>
      let freed (α : R) : Ended R m :=
        .at (settle qp { point := along s.point d α, free := move.coordinate :: s.free })
      let blocked (b : Block R m) : Ended R m :=
        let point := replaced (along s.point d b.distance) b.coordinate b.bound
        if b.coordinate = move.coordinate then .at { s with point } else
          match qp.feasible, s.free.erase b.coordinate with
          | .simplex, [] => .at (settle qp { point, free := [move.coordinate] })
          | _, free =>
            let g := gradient qp point
            let slope := g move.coordinate - multiplier qp { point, free } g
            carry qp { move with gain := if move.up then -slope else slope } budget { point, free }
      match minimumAlong? qp d move.gain, firstBlock? qp s.point d with
      | some α, some b => if α ≤ b.distance then freed α else blocked b
      | some α, none => freed α
      | none, some b => blocked b
      | none, none => .unbounded

/-- Moves one coordinate after the other, `limit` times at most, until no move promises anything. -/
def exchanges (qp : QuadraticProgram R m) : (limit : Nat) → State R m → Ended R m
  | 0, s => .at s
  | limit + 1, s =>
    match bestMove? qp s with
    | none => .at s
    | some move =>
      match carry qp move (s.free.length + 1) s with
      | .unbounded => .unbounded
      | .at s => exchanges qp limit s

/-- Where the exchanges begin: a point of the box with no free coordinate, or the best vertex of the
simplex. -/
def start (qp : QuadraticProgram R m) : State R m :=
  match qp.feasible with
  | .box _ _ => { point := qp.feasible.somePoint, free := [] }
  | .simplex =>
    let vertex (i : Fin m) : Vector R m := replaced (Vector.replicate m 0) i 1
    let best := Fin.foldl m (fun best i ↦
      match best with
      | none => some i
      | some b => if qp.objective (vertex i) < qp.objective (vertex b) then some i else best) none
    match best with
    | none => { point := Vector.replicate m 0, free := [] }
    | some i => { point := vertex i, free := [i] }

end Exchange

/-- A minimiser of a convex quadratic program.  One round places the starting point, and every
further one allows as many exchanges as the matrix has entries; a single round certifies nothing. -/
def exchangeMinimizer (rounds : Nat) (qp : QuadraticProgram R m) : Except QpError (Vector R m) :=
  if rounds ≤ 1 then .error (.unsolved "MaxIterations") else
    match Exchange.exchanges qp ((rounds - 1) * (m + 1) * (m + 1)) (Exchange.start qp) with
    | .at s => .ok s.point
    | .unbounded => .error (.unsolved "DualInfeasible")

end ExactPenalty
