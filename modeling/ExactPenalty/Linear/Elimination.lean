import ExactPenalty.Linear.Mat

/-!
# Linear systems

`solveLinear?` solves a square system by elimination with partial pivoting: in every column the
entry of largest magnitude on or below the diagonal becomes the pivot, the first one among equals.
A column without a nonzero pivot is left alone, and the zero it leaves on the diagonal makes the
answer `none`.
-/

set_option autoImplicit false

namespace ExactPenalty

open Scalar Linear

variable {R : Type} [Scalar R] {k : Nat}

/-- A square system of linear equations. -/
structure LinearSystem (R : Type) (k : Nat) where
  matrix : Mat R k k
  rhs : Vector R k

namespace LinearSystem

/-- The row, on or below the diagonal, whose entry in column `c` has the largest magnitude. -/
@[specialize] def pivotRow (s : LinearSystem R k) (c : Fin k) : Fin k :=
  Fin.foldl k (fun best i ↦
    if c < i ∧ Scalar.abs (s.matrix best c) < Scalar.abs (s.matrix i c) then i else best) c

/-- Brings the pivot of column `c` onto the diagonal. -/
@[specialize] def pivot (s : LinearSystem R k) (c : Fin k) : LinearSystem R k :=
  let p := s.pivotRow c
  { matrix := exchanged s.matrix c p, rhs := exchanged s.rhs c p }

/-- Subtracts multiples of row `c` from the rows below it, so that column `c` vanishes there. -/
@[specialize] def clearBelow (s : LinearSystem R k) (c : Fin k) : LinearSystem R k :=
  let row := s.matrix c
  if Same (row c) 0 then s else
    let factor (i : Fin k) : R := s.matrix i c / row c
    { matrix := Vector.ofFn fun i ↦
        if c < i then s.matrix i - scale row (factor i) else s.matrix i
      rhs := Vector.ofFn fun i ↦
        if c < i then s.rhs i - factor i * s.rhs c else s.rhs i }

/-- The equivalent system with zeros below the diagonal. -/
@[specialize] def triangular (s : LinearSystem R k) : LinearSystem R k :=
  Fin.foldl k (fun s c ↦ (s.pivot c).clearBelow c) s

/-- Solves a system with zeros below the diagonal, the last unknown first. -/
@[specialize] def backSubstitute? (s : LinearSystem R k) : Option (Vector R k) :=
  if (Fin.foldl k (fun found i ↦ found || decide (Same (s.matrix i i) 0)) false) then none else
    some <| Fin.foldr k (fun i x ↦
      let known := Fin.foldl k (fun acc j ↦
        if i < j then acc + s.matrix i j * x j else acc) 0
      replaced x i ((s.rhs i - known) / s.matrix i i)) s.rhs

end LinearSystem

/-- The solution of `a x = b`, or `none` if elimination meets a column without a pivot. -/
@[specialize] def solveLinear? (a : Mat R k k) (b : Vector R k) : Option (Vector R k) :=
  (LinearSystem.triangular ⟨a, b⟩).backSubstitute?

end ExactPenalty
