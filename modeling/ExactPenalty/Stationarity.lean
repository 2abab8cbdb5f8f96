import ExactPenalty.Steering

/-!
# Approximate stationarity

At a kink no single gradient vanishes, but a convex combination of gradients taken close by does.
The stationarity measure is the norm of `H g`, where `g` is the convex combination that is shortest
in the metric of `H`; the combination solves a quadratic program over the unit simplex.

* `GradientBundle` — the most recent points with their gradients, oldest first.  Objective and
  violation are stored apart, so an old gradient is weighed with the penalty parameter of today.
* `GradientBundle.measure` — the measure at a point, from the samples within a radius of it.

The current gradient always takes part, so the measure is at most that of the current gradient
alone; and that is the measure where the program has no answer.
-/

set_option autoImplicit false

namespace ExactPenalty

open Scalar Linear

variable {σ R : Type} [Scalar R] {n : Nat}

/-! ## The bundle -/

/-- A point with the two parts of its penalty gradient. -/
structure GradientSample (R : Type) (n : Nat) where
  point : Vector R n
  grad : Vector R n
  violationGrad : Vector R n

/-- The penalty gradient of a sample for the weight `μ`. -/
def GradientSample.penaltyGradAt (s : GradientSample R n) (μ : R) : Vector R n :=
  scale s.grad μ + s.violationGrad

/-- The sample of an observation. -/
def Observation.sample (o : Observation R n) : GradientSample R n where
  point := o.point
  grad := o.grad
  violationGrad := o.penaltyGradAt 0

/-- Recent samples, oldest first. -/
structure GradientBundle (R : Type) (n : Nat) where
  samples : List (GradientSample R n)
  /-- How many samples are kept. -/
  capacity : Nat

namespace GradientBundle

/-- No samples yet.  At least one can be kept. -/
def empty (capacity : Nat) : GradientBundle R n where
  samples := []
  capacity := max capacity 1

/-- Adds the sample of an observation; when the bundle is full the oldest one leaves. -/
def push (b : GradientBundle R n) (o : Observation R n) : GradientBundle R n :=
  let kept := if b.samples.length = b.capacity then b.samples.tail else b.samples
  { b with samples := kept ++ [o.sample] }

end GradientBundle

/-! ## The measure -/

/-- The stationarity measure, and how it came about. -/
structure Stationarity (R : Type) where
  value : R
  /-- The gradients that took part. -/
  samples : Nat
  /-- Why the program had no answer, if it had none. -/
  failure : Option QpError

/-- The program of the shortest convex combination of gradients, where `curved` are the gradients
multiplied by `H`. -/
def shortestCombination {p : Nat} (grads : Vector (Vector R n) p) (curved : Mat R n p) :
    QuadraticProgram R p where
  hessian := Mat.symmetrized <| Mat.ofFn fun i j ↦
    plainSum fun l : Fin n ↦ grads i l * curved l j
  linear := Vector.replicate p 0
  feasible := .simplex

namespace GradientBundle

/-- The penalty gradients of the samples within a radius of a point, but not at it. -/
def nearby (b : GradientBundle R n) (it : Iterate R n) (radius : Extended R) :
    List (Vector R n) :=
  b.samples.filterMap fun s ↦
    let distance := norm₂ (s.point - it.point)
    if radius.AtLeast distance ∧ 0 < distance then some (s.penaltyGradAt it.mu) else none

/-- The stationarity measure at an iterate, in the metric of `h`. -/
def measure (b : GradientBundle R n) (solve : QpService σ R) (it : Iterate R n) (h : Mat R n n)
    (radius : Extended R) : StateM σ (Stationarity R) := do
  let alone := norm₂ (h.mulVec it.penaltyGrad)
  match b.nearby it radius with
  | [] => return { value := alone, samples := 1, failure := none }
  | others =>
    let grads : Vector (Vector R n) _ := ⟨(it.penaltyGrad :: others).toArray, rfl⟩
    let curved := h.mul (.ofColumns grads)
    match ← solve (shortestCombination grads curved) with
    | .ok weights =>
      let value := smaller (norm₂ (curved.mulVec weights)) alone
      return { value, samples := others.length + 1, failure := none }
    | .error e => return { value := alone, samples := 1, failure := some e }

end GradientBundle

end ExactPenalty
