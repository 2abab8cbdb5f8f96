import ExactPenalty.Linear.Eigen
import ExactPenalty.Options

/-!
# Capping the condition number

Inside the quadratic programs the curvature matrix is replaced by one whose eigenvalues are not too
far apart.  `condition` clips the spectrum so that the ratio of the largest to the smallest
magnitude is at most a threshold, and leaves the eigenvectors alone; a matrix that is within the
threshold is returned as it is.

There are two ways to clip: raise the small eigenvalues to `λ_max / threshold`, or lower the large
magnitudes to `threshold · |λ|_min`.  The second has nothing to start from when some eigenvalue is
exactly zero, and then the first is used in its place.
-/

set_option autoImplicit false

namespace ExactPenalty

open Scalar Linear

variable {R : Type} [Scalar R] {n : Nat}

/-! ## Extremes of a spectrum -/

/-- The smallest entry. -/
def minimum? : List R → Option R
  | [] => none
  | x :: xs => some (xs.foldl smaller x)

/-- The largest entry. -/
def maximum? : List R → Option R
  | [] => none
  | x :: xs => some (xs.foldl larger x)

/-- The magnitudes of the eigenvalues. -/
def magnitudes (values : Vector R n) : List R := values.toList.map Scalar.abs

/-- The ratio of the largest to the smallest magnitude; one if there is no eigenvalue, and without
bound if one of them is zero. -/
def magnitudeRatio (values : Vector R n) : Extended R :=
  match minimum? (magnitudes values), maximum? (magnitudes values) with
  | some least, some greatest => if Same least 0 then .posInf else .finite (greatest / least)
  | _, _ => .finite 1

/-- The eigenvalues and eigenvectors of the symmetric part of a matrix. -/
def spectrum (eigen : EigenMethod R) (h : Mat R n n) : Eigen R n := eigen h.symmetrized

/-- The ratio of the largest to the smallest eigenvalue magnitude. -/
def conditionNumber (eigen : EigenMethod R) (h : Mat R n n) : Extended R :=
  magnitudeRatio (spectrum eigen h).values

/-! ## Clipping -/

/-- Eigenvalues below `λ_max / threshold` are raised to it. -/
def raiseSmallest (threshold : R) (values : Vector R n) : Vector R n :=
  match maximum? values.toList with
  | none => values
  | some greatest =>
    let floor := greatest / threshold
    values.map fun v ↦ if v < floor then floor else v

/-- Eigenvalues of magnitude above `threshold · |λ|_min` are lowered to it, keeping their sign. -/
def lowerLargest (threshold : R) (values : Vector R n) : Vector R n :=
  match minimum? (magnitudes values) with
  | none => values
  | some least =>
    let cap := threshold * least
    values.map fun v ↦ if cap < Scalar.abs v then (if v < 0 then -cap else cap) else v

/-- A matrix with a capped condition number. -/
structure Conditioned (R : Type) (n : Nat) where
  matrix : Mat R n n
  /-- It is the matrix that was given. -/
  unchanged : Bool
  /-- Lowering was asked for, but an eigenvalue was zero. -/
  raisedInstead : Bool

/-- Caps the condition number of a symmetric matrix.  An infinite threshold means no cap, and one
below one counts as one. -/
def condition (eigen : EigenMethod R) (o : ConditioningOptions R) (h : Mat R n n) :
    Conditioned R n :=
  match o.threshold with
  | .finite t =>
    if n = 0 then ⟨h, true, false⟩ else
      let threshold := larger t 1
      let e := spectrum eigen h
      if (magnitudeRatio e.values).AtMost threshold then ⟨h, true, false⟩ else
        let hasZero := e.values.any fun v ↦ decide (Same v 0)
        let values := if o.lowerLargest && !hasZero then lowerLargest threshold e.values
          else raiseSmallest threshold e.values
        { matrix := ({ e with values } : Eigen R n).rebuild.symmetrized
          unchanged := false
          raisedInstead := o.lowerLargest && hasZero }
  | _ => ⟨h, true, false⟩

end ExactPenalty
