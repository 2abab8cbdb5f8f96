import ExactPenalty.Linear.Mat

/-!
# Eigenvalues of symmetric matrices

`rotationEigen` diagonalises a symmetric matrix by plane rotations.  A sweep visits every pair
`p < q` and rotates the coordinates `p` and `q` so that the entry `(p, q)` vanishes; the product of
the rotations collects the eigenvectors.  The entries off the diagonal shrink quadratically once
they are small, so a few sweeps suffice, and the sweeping stops as soon as none of them is large
enough to move a diagonal entry.

The rest of the library takes the decomposition as a parameter (`EigenMethod`), because what it
needs of it is only that the vectors are orthonormal and rebuild the matrix.
-/

set_option autoImplicit false

namespace ExactPenalty

open Scalar Linear

variable {R : Type} [Scalar R] {n : Nat}

/-- Eigenvalues, and the matrix whose columns are the eigenvectors in the same order. -/
structure Eigen (R : Type) (n : Nat) where
  values : Vector R n
  vectors : Mat R n n

/-- A way to decompose symmetric matrices of every dimension. -/
abbrev EigenMethod (R : Type) : Type := {n : Nat} → Mat R n n → Eigen R n

namespace Eigen

/-- The symmetric matrix with these eigenvalues and eigenvectors, one rank-one term at a time. -/
@[specialize] def rebuild (e : Eigen R n) : Mat R n n :=
  Mat.ofFn fun i j ↦ plainSum fun k : Fin n ↦ e.vectors i k * e.values k * e.vectors j k

end Eigen

/-! ## Plane rotations -/

/-- A matrix on its way to diagonal form, and the rotations applied so far. -/
structure Rotating (R : Type) (n : Nat) where
  matrix : Mat R n n
  vectors : Mat R n n
  /-- Some rotation was needed since the flag was last cleared. -/
  moved : Bool

namespace Rotating

/-- The entries `p` and `q` of a row, rotated. -/
@[specialize] def rotateRow (p q : Fin n) (s τ : R) (row : Vector R n) : Vector R n :=
  let x := row p
  let y := row q
  replaced (replaced row p (x - s * (y + τ * x))) q (y + s * (x - τ * y))

/-- The rotation that makes the entry `(p, q)` vanish. -/
@[specialize] def rotate (r : Rotating R n) (p q : Fin n) : Rotating R n :=
  let a := r.matrix
  let app := a p p
  let aqq := a q q
  let apq := a p q
  let θ := (aqq - app) / (apq + apq)
  let t := (if θ < 0 then -1 else 1) / (Scalar.abs θ + sqrt (θ * θ + 1))
  let c := 1 / sqrt (t * t + 1)
  let s := t * c
  let τ := s / (1 + c)
  let rowP : Vector R n := Vector.ofFn fun j ↦
    if j = p then app - t * apq else if j = q then 0
    else a p j - s * (a q j + τ * a p j)
  let rowQ : Vector R n := Vector.ofFn fun j ↦
    if j = q then aqq + t * apq else if j = p then 0
    else a q j + s * (a p j - τ * a q j)
  { matrix := replaced (replaced (a.map (rotateRow p q s τ)) p rowP) q rowQ
    vectors := r.vectors.map (rotateRow p q s τ)
    moved := true }

/-- The entry `(p, q)` is too small to change either of the diagonal entries beside it. -/
@[specialize] def isNegligible (r : Rotating R n) (p q : Fin n) : Bool :=
  let small := Scalar.abs (r.matrix p q) * 0.01
  let x := Scalar.abs (r.matrix p p)
  let y := Scalar.abs (r.matrix q q)
  decide (x + small ≤ x ∧ y + small ≤ y)

/-- One visit to every pair of coordinates. -/
@[specialize] def sweep (r : Rotating R n) : Rotating R n :=
  Fin.foldl n (fun r p ↦ Fin.foldl n (fun r q ↦
    if p < q ∧ r.isNegligible p q = false then r.rotate p q else r) r) { r with moved := false }

/-- Sweeps until nothing moves, `limit` times at most. -/
@[specialize] def sweeps : (limit : Nat) → Rotating R n → Rotating R n
  | 0, r => r
  | limit + 1, r =>
    let r := r.sweep
    if r.moved then sweeps limit r else r

end Rotating

/-- The eigenvalues and eigenvectors of a symmetric matrix. -/
@[specialize] def rotationEigen (a : Mat R n n) : Eigen R n :=
  let r := Rotating.sweeps 60 ⟨a, Mat.identity R n, false⟩
  { values := Vector.ofFn fun i ↦ r.matrix i i, vectors := r.vectors }

end ExactPenalty
