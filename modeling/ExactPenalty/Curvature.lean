import ExactPenalty.Linear.Mat
import ExactPenalty.Options

/-!
# The inverse-curvature matrix

A quasi-Newton method keeps an approximation `H` of the inverse second derivative of the penalty
function and corrects it after every step from a secant pair: the displacement `s` and the change
`y` of the gradient.  `Curvature` is the matrix with its counters, and `Curvature.update` the
damped BFGS correction.

A pair is refused, and leaves the matrix alone, unless its curvature `sᵀy` is safely positive.  An
accepted pair whose curvature is below the fraction `damping` of the predicted `yᵀHy` is damped:
`s` is moved towards `H y` until the two agree on that fraction.  The correction is written in its
expanded form,

  `H + (sᵀy + yᵀHy) / (sᵀy)² s sᵀ − (H y sᵀ + s yᵀ H) / sᵀy`,

and averaged with its transpose, so the stored matrix is symmetric whatever the rounding.
-/

set_option autoImplicit false

namespace ExactPenalty

open Scalar Linear

variable {R : Type} [Scalar R] {n : Nat}

/-- What became of a secant pair. -/
inductive SecantUpdate (R : Type) where
  /-- It was used as it is. -/
  | applied
  /-- It was damped first. -/
  | damped
  /-- Its curvature, given here, was not safely positive. -/
  | skippedCurvature (sty : R)
  /-- The pair or the corrected matrix was not finite. -/
  | skippedNonFinite

/-- The pair entered the matrix. -/
def SecantUpdate.wasApplied : SecantUpdate R → Bool
  | applied | damped => true
  | _ => false

/-- The approximation of the inverse second derivative, and what happened to it so far. -/
structure Curvature (R : Type) (n : Nat) where
  matrix : Mat R n n
  scaleInitial : Bool
  damping : R
  applied : Nat
  skipped : Nat

namespace Curvature

/-- The identity, before any update.  The damping is brought into the unit interval. -/
def initial (n : Nat) (o : CurvatureOptions R) : Curvature R n where
  matrix := Mat.identity R n
  scaleInitial := o.scaleInitial
  damping := if o.damping < 0 then 0 else if 1 < o.damping then 1 else o.damping
  applied := 0
  skipped := 0

/-- One more pair refused. -/
def skip (c : Curvature R n) : Curvature R n := { c with skipped := c.skipped + 1 }

/-- The matrix that the pair corrects: the stored one, rescaled by the first pair accepted. -/
def base (c : Curvature R n) (s y : Vector R n) : Mat R n n :=
  if c.scaleInitial ∧ c.applied = 0 then c.matrix.scaled (dot s y / dot y y) else c.matrix

/-- The correction of `h` by a displacement `s` of curvature `sty`, where `hy = h y` and
`yhy = yᵀ h y`. -/
def corrected (h : Mat R n n) (s hy : Vector R n) (sty yhy : R) : Mat R n n :=
  let ρ := 1 / sty
  let c := (sty + yhy) * ρ * ρ
  Mat.symmetrized <| Mat.ofFn fun i j ↦
    h i j + (c * s i * s j - ρ * (hy i * s j + s i * hy j))

/-- The displacement moved towards `hy` by the weight that lifts its curvature `sty` to the
fraction `damping` of `yhy`. -/
def dampedStep (damping : R) (s hy : Vector R n) (sty yhy : R) : Vector R n :=
  let θ := (1 - damping) * yhy / (yhy - sty)
  scale s θ + scale hy (1 - θ)

/-- Offers the secant pair `(s, y)` to the matrix. -/
def update (c : Curvature R n) (s y : Vector R n) : SecantUpdate R × Curvature R n :=
  if allFinite s && allFinite y then
    let sty := dot s y
    if epsilon * (norm₂ s * norm₂ y) < sty then
      let h := c.base s y
      let hy := h.mulVec y
      let yhy := dot y hy
      let weak : Bool := decide (0 < c.damping ∧ sty < c.damping * yhy)
      let step := if weak then dampedStep c.damping s hy sty yhy else s
      let curvature := if weak then dot step y else sty
      let next := corrected h step hy curvature yhy
      if next.isFinite then
        (if weak then .damped else .applied, { c with matrix := next, applied := c.applied + 1 })
      else (.skippedNonFinite, c.skip)
    else (.skippedCurvature sty, c.skip)
  else (.skippedNonFinite, c.skip)

end Curvature

end ExactPenalty
