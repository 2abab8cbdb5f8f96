import Mathlib
import ExactPenalty.Direction
import ExactPenalty.Proofs.Direction
import ExactPenalty.Proofs.Frame.Curvature
import ExactPenalty.Proofs.Frame.Problem
import ExactPenalty.Stationarity

/-!
# Quadratic programs and directions in another frame

The quadratic programs of the method are made of inner products, so they are the same in every frame
(`SteeringModel.program_inFrame`, `GradientBundle.shortestLength_inFrame`).  A solver is asked the same and
so answers the same; what is made of the answer is the same displacement in new coordinates.

* `steer_inFrame`, `DirectionContext.attempt_inFrame` — steering, and the attempts of all rungs.
* `GradientBundle.measure_inFrame` — the stationarity measure.

A random direction is drawn by its coordinates, and so it depends on them: on the random rung the
coordinates have to stay.
-/

set_option autoImplicit false

namespace ExactPenalty

open Linear Matrix

variable {σ : Type} {n m : Nat} (F : Frame n)

/-! ## The steering model -/

namespace Frame

theorem column_columns (a : Mat ℝ n m) (k : Fin m) : (F.columns a).column k = F.vec (a.column k) := by
  have hcolumn (a : Mat ℝ n m) : (a.column k).get = fun i ↦ a.toMatrix i k := by
    funext i
    simp [Mat.column, Mat.toMatrix_apply, get_eq]
  refine ext_get fun i ↦ ?_
  rw [hcolumn, toMatrix_columns, get_vec, hcolumn]
  rfl

end Frame

/-- A sum over a column is an inner product with it. -/
theorem Mat.plainSum_column (v : Vector ℝ n) (a : Mat ℝ n m) (j : Fin m) :
    (plainSum fun l : Fin n ↦ v l * a l j) = plainDot v (a.column j) := by
  refine congrArg plainSum (funext fun l ↦ congrArg (v l * ·) ?_)
  simp [Mat.column, get_eq]

namespace SteeringModel

/-- The steering model of constraints that are given by their values and the matrix of their
gradients. -/
noncomputable def of (values : Vector ℝ m) (J : Mat ℝ n m) (grad : Vector ℝ n) (ineq : Nat)
    (h : Mat ℝ n n) : SteeringModel ℝ n m :=
  let curvedGrads := h.mul J
  let curvedGrad := h.mulVec grad
  let columns := Vector.ofFn fun k ↦ J.column k
  { values
    curvedGrads
    dualHessian := Mat.symmetrized <| Mat.ofFn fun i j ↦
      plainSum fun l : Fin n ↦ columns i l * curvedGrads l j
    curvedGrad
    dualGrad := columns.map fun g ↦ plainDot g curvedGrad
    multipliers := multiplierBox ineq m }

variable (values : Vector ℝ m) (J : Mat ℝ n m) (grad : Vector ℝ n) (ineq : Nat) (h : Mat ℝ n n)

theorem dualHessian_inFrame :
    (of values (F.columns J) (scale (F.vec grad) F.unit) ineq (F.mat h)).dualHessian
      = (of values J grad ineq h).dualHessian := by
  refine congrArg Mat.symmetrized (congrArg Mat.ofFn (funext fun i ↦ funext fun j ↦ ?_))
  rw [Mat.plainSum_column, Mat.plainSum_column, get_ofFn, get_ofFn, F.mul_mat, F.column_columns,
    F.column_columns, F.plainDot_vec]

theorem curvedGrad_inFrame : (of values (F.columns J) (scale (F.vec grad) F.unit) ineq (F.mat h)).curvedGrad
    = scale (F.vec (of values J grad ineq h).curvedGrad) F.unit := by
  show (F.mat h).mulVec _ = scale (F.vec (h.mulVec grad)) F.unit
  rw [← F.vec_scale, F.mulVec_mat, ← F.vec_scale]
  congr 1
  exact ext_get fun i ↦ by simp [mulVec_smul]

theorem dualGrad_inFrame : (of values (F.columns J) (scale (F.vec grad) F.unit) ineq (F.mat h)).dualGrad
    = scale (of values J grad ineq h).dualGrad F.unit := by
  have hcurved := curvedGrad_inFrame F values J grad ineq h
  refine ext_get fun k ↦ ?_
  show ((Vector.ofFn _).map fun g ↦ plainDot g (of values (F.columns J) (scale (F.vec grad) F.unit) ineq
    (F.mat h)).curvedGrad).get k = _
  rw [hcurved, get_scale, get_map, get_ofFn, F.column_columns, plainDot_eq, get_scale, dotProduct_smul,
    ← plainDot_eq, F.plainDot_vec]
  refine congrArg (F.unit * ·) ?_
  show _ = ((Vector.ofFn _).map fun g ↦ plainDot g (h.mulVec grad)).get k
  rw [get_map, get_ofFn]
  rfl

/-- **The dual program does not depend on the frame.** -/
theorem program_inFrame (μ : ℝ) :
    (of values (F.columns J) (scale (F.vec grad) F.unit) ineq (F.mat h)).program (μ / F.unit)
      = (of values J grad ineq h).program μ := by
  rw [program, program, dualHessian_inFrame, dualGrad_inFrame, F.scale_scale_unit]
  rfl

/-- The direction of the same multipliers is the same displacement. -/
theorem directionOf_inFrame (μ : ℝ) (y : Vector ℝ m) :
    (of values (F.columns J) (scale (F.vec grad) F.unit) ineq (F.mat h)).directionOf (μ / F.unit) y
      = F.vec ((of values J grad ineq h).directionOf μ y) := by
  have hcurved : (of values (F.columns J) (scale (F.vec grad) F.unit) ineq (F.mat h)).curvedGrads
      = F.columns (of values J grad ineq h).curvedGrads := F.mul_mat h J
  rw [directionOf, directionOf, curvedGrad_inFrame, F.scale_scale_unit, hcurved, F.mulVec_columns,
    F.vec_neg, F.vec_add, F.vec_scale]

/-- The number of constraints is the same in both frames, but not by definition; so the direction is
compared for models of any two equal sizes. -/
theorem direction_inFrame (solve : QpService σ ℝ) (μ : ℝ) {m' : Nat} (hm : m = m')
    {values : Vector ℝ m} {values' : Vector ℝ m'} {J : Mat ℝ n m} {J' : Mat ℝ n m'}
    (hvalues : ∀ k, values'.get (k.cast hm) = values.get k)
    (hJ : ∀ i k, (J'.get i).get (k.cast hm) = ((F.columns J).get i).get k) (grad : Vector ℝ n)
    (ineq : Nat) :
    (of values' J' (scale (F.vec grad) F.unit) ineq (F.mat h)).direction solve (μ / F.unit)
      = F.vec <$> (of values J grad ineq h).direction solve μ := by
  subst hm
  obtain rfl : values' = values := ext_get hvalues
  obtain rfl : J' = F.columns J := ext_get fun i ↦ ext_get (hJ i)
  rw [direction, direction, program_inFrame, map_bind]
  refine bind_congr fun y ↦ ?_
  dsimp only
  rw [directionOf_inFrame, allFinite_real, allFinite_real, if_pos rfl, if_pos rfl, map_pure]

end SteeringModel

namespace Observation

variable (o : Observation ℝ n) (h : Mat ℝ n n) (solve : QpService σ ℝ) (μ : ℝ)

theorem steeringModel_eq :
    o.steeringModel h = .of (o.steeringModel h).values o.jacobian o.grad o.ineq.length h := rfl

/-- **The direction of the steering model** is the same displacement in every frame. -/
theorem direction_inFrame :
    ((o.inFrame F).steeringModel (F.mat h)).direction solve (μ / F.unit)
      = F.vec <$> (o.steeringModel h).direction solve μ := by
  have hm : o.constraints.length = (o.inFrame F).constraints.length := by
    rw [constraints_inFrame, List.length_map]
  have hineq : (o.inFrame F).ineq.length = o.ineq.length := List.length_map _
  rw [(o.inFrame F).steeringModel_eq, o.steeringModel_eq, hineq]
  have hconstraint (k : Fin o.constraints.length) :
      (o.inFrame F).constraint (k.cast hm) = (o.constraint k).inFrame F := by
    simp [constraint]
  refine SteeringModel.direction_inFrame F h solve μ hm (fun k ↦ ?_) (fun i k ↦ ?_) o.grad _
  · rw [get_values, get_values, valueVec, hconstraint]
    rfl
  · rw [← Mat.toMatrix_apply, ← Mat.toMatrix_apply, toMatrix_jacobian, hconstraint, F.toMatrix_columns]
    have hcolumn : (o.constraint k).grad.get = fun j ↦ o.jacobian.toMatrix j k :=
      funext fun j ↦ (o.toMatrix_jacobian j k).symm
    show (F.vec (o.constraint k).grad).get i = _
    rw [F.get_vec, hcolumn]
    rfl

end Observation

/-! ## Steering -/

namespace SteeringOutcome

noncomputable def inFrame (out : SteeringOutcome ℝ n) : SteeringOutcome ℝ n :=
  { out with direction := F.vec out.direction, mu := out.mu / F.unit }

theorem orBetter_inFrame (best : Option (SteeringOutcome ℝ n)) (next : SteeringOutcome ℝ n) :
    orBetter (best.map (·.inFrame F)) (next.inFrame F) = (orBetter best next).inFrame F := by
  cases best with
  | none => rfl
  | some b => exact (apply_ite (·.inFrame F) (b.predicted < next.predicted) next b).symm

/-- A search for an adequate weight finds the same one, if its attempts do not depend on the frame. -/
theorem firstAdequate_inFrame {c : ℝ}
    {attempt attempt' : (shrinks : Nat) → (μ : ℝ) → ExceptT QpError (StateM σ) (SteeringOutcome ℝ n)}
    (hattempt : ∀ k μ, attempt' k (μ / F.unit) = inFrame F <$> attempt k μ) (left shrinks : Nat) (μ : ℝ)
    (best : Option (SteeringOutcome ℝ n)) :
    firstAdequate c attempt' left shrinks (μ / F.unit) (best.map (·.inFrame F))
      = inFrame F <$> firstAdequate c attempt left shrinks μ best := by
  induction left generalizing shrinks μ best with
  | zero => cases best <;> rfl
  | succ left ih =>
    rw [firstAdequate, firstAdequate, hattempt, bind_map_left, map_bind]
    refine bind_congr fun next ↦ ?_
    rw [orBetter_inFrame]
    by_cases hadequate : next.adequate = true
    · rw [if_pos hadequate, if_pos (show (next.inFrame F).adequate = true from hadequate), map_pure]
    · rw [if_neg hadequate, if_neg (show ¬(next.inFrame F).adequate = true from hadequate)]
      rw [← ih, div_mul_eq_mul_div]
      rfl

end SteeringOutcome

/-- **Steering finds the same direction in every frame**, for the same penalty parameter. -/
theorem steer_inFrame (solve : QpService σ ℝ) (options : SteeringOptions ℝ) (o : Observation ℝ n)
    (h : Mat ℝ n n) (μ : ℝ) :
    steer solve options (o.inFrame F) (F.mat h) (μ / F.unit)
      = SteeringOutcome.inFrame F <$> steer solve options o h μ := by
  have hzero := o.direction_inFrame F h solve 0
  rw [zero_div] at hzero
  rw [steer, steer]
  dsimp only
  rw [hzero, bind_map_left, map_bind]
  refine bind_congr fun d ↦ ?_
  rw [o.predictedReduction_inFrame]
  refine SteeringOutcome.firstAdequate_inFrame F (fun k ν ↦ ?_) _ _ _ none
  rw [o.direction_inFrame, bind_map_left, map_bind]
  refine bind_congr fun d ↦ ?_
  rw [o.predictedReduction_inFrame]
  rfl

/-! ## Directions -/

noncomputable def Direction.inFrame (d : Direction ℝ n) : Direction ℝ n :=
  { d with vector := F.vec d.vector, mu := d.mu / F.unit }

noncomputable def DirectionError.inFrame : DirectionError ℝ n → DirectionError ℝ n
  | qp e => qp e
  | nonDescent d => nonDescent (d.inFrame F)
  | degenerate => degenerate

noncomputable def Proposal.inFrame (p : Proposal ℝ n) : Proposal ℝ n where
  vector := F.vec p.vector
  mu := p.mu / F.unit
  steered := p.steered.map (·.inFrame F)

/-- What an attempt comes to, in another frame. -/
noncomputable def DirectionAttempt.resultInFrame :
    Except (DirectionError ℝ n) (Direction ℝ n) → Except (DirectionError ℝ n) (Direction ℝ n)
  | .ok d => .ok (d.inFrame F)
  | .error e => .error (e.inFrame F)

noncomputable def DirectionAttempt.inFrame (a : DirectionAttempt ℝ n) : DirectionAttempt ℝ n where
  level := a.level
  steered := a.steered.map (·.inFrame F)
  result := resultInFrame F a.result

namespace DirectionContext

variable (ctx : DirectionContext ℝ n)

noncomputable def inFrame : DirectionContext ℝ n where
  observation := ctx.observation.inFrame F
  curvature := F.mat ctx.curvature
  conditioned := F.mat ctx.conditioned
  engaged := ctx.engaged

theorem steered_inFrame (solve : QpService σ ℝ) (options : SteeringOptions ℝ) (h : Mat ℝ n n) (μ : ℝ) :
    (ctx.inFrame F).steered solve options (F.mat h) (μ / F.unit)
      = Except.map (Proposal.inFrame F) <$> ctx.steered solve options h μ := by
  have hsteer := steer_inFrame F solve options ctx.observation h μ
  rw [steered, steered, map_bind]
  show (steer solve options (ctx.observation.inFrame F) (F.mat h) (μ / F.unit)).run >>= _ = _
  rw [hsteer, ExceptT.run_map, bind_map_left]
  refine bind_congr fun outcome ↦ ?_
  cases outcome <;> rfl

/-- **Every rung but the random one proposes the same displacement in every frame**, and so does the
random one where the coordinates stay. -/
theorem propose_inFrame (solve : QpService σ ℝ) (options : SteeringOptions ℝ) {level : Level}
    (hlevel : level = .random → F.rotation = 1) (μ : ℝ) (g : Generator) :
    (ctx.inFrame F).propose solve options level (μ / F.unit) g
      = Prod.map (Except.map (Proposal.inFrame F)) id <$> ctx.propose solve options level μ g := by
  have hgrad : (ctx.inFrame F).observation.penaltyGradAt (μ / F.unit)
      = F.vec (ctx.observation.penaltyGradAt μ) := ctx.observation.penaltyGradAt_inFrame F μ
  have hengaged : (ctx.inFrame F).engaged = ctx.engaged := rfl
  have hsteered (h : Mat ℝ n n) : (do return (← (ctx.inFrame F).steered solve options (F.mat h)
        (μ / F.unit), g) : StateM σ (Except QpError (Proposal ℝ n) × Generator))
      = Prod.map (Except.map (Proposal.inFrame F)) id
          <$> (do return (← ctx.steered solve options h μ, g)) := by
    rw [steered_inFrame, bind_map_left, map_bind]
    rfl
  have hplain {v v' : Vector ℝ n} (hv : v' = F.vec v) (g : Generator) :
      (pure (.ok ⟨v', μ / F.unit, none⟩, g) : StateM σ (Except QpError (Proposal ℝ n) × Generator))
        = Prod.map (Except.map (Proposal.inFrame F)) id <$> pure (.ok ⟨v, μ, none⟩, g) := by
    rw [map_pure, hv]
    rfl
  rw [propose.eq_def, propose.eq_def, hgrad, hengaged]
  cases level with
  | steering =>
    cases ctx.engaged with
    | true => exact hsteered ctx.conditioned
    | false => exact hplain (by rw [F.vec_neg, ← F.mulVec_mat]; rfl) g
  | steeringIdentity =>
    cases ctx.engaged with
    | true =>
      have hidentity := hsteered (.identity ℝ n)
      rwa [F.mat_identity] at hidentity
    | false => exact hplain (F.vec_neg _).symm g
  | quasiNewton => exact hplain (by rw [F.vec_neg, ← F.mulVec_mat]; rfl) g
  | steepestDescent => exact hplain (F.vec_neg _).symm g
  | random => exact hplain (F.vec_of_rotation_eq_one (hlevel rfl) _).symm _

/-- **A proposal is judged alike in every frame.** -/
theorem judge_inFrame (lenient : Bool) (level : Level) (p : Proposal ℝ n) :
    (ctx.inFrame F).judge lenient level (p.inFrame F)
      = DirectionAttempt.resultInFrame F (ctx.judge lenient level p) := by
  have hslope : dot ((ctx.inFrame F).observation.penaltyGradAt (p.inFrame F).mu) (p.inFrame F).vector
      = dot (ctx.observation.penaltyGradAt p.mu) p.vector := by
    show dot ((ctx.observation.inFrame F).penaltyGradAt (p.mu / F.unit)) (F.vec p.vector) = _
    rw [ctx.observation.penaltyGradAt_inFrame, F.dot_vec]
  have hzero : ((p.inFrame F).vector.all fun v ↦ decide (Scalar.Same v 0))
      = p.vector.all fun v ↦ decide (Scalar.Same v 0) := by
    rw [Bool.eq_iff_iff, all_same_zero_iff, all_same_zero_iff]
    exact F.get_vec_eq_zero_iff
  have hneg : (p.inFrame F).vector.map (-·) = F.vec (p.vector.map (-·)) := (F.vec_neg p.vector).symm
  have hpredicted : (p.inFrame F).steered.map (·.predicted) = p.steered.map (·.predicted) := by
    show (p.steered.map (·.inFrame F)).map (·.predicted) = _
    rw [Option.map_map]
    rfl
  rw [judge, judge, hslope, hneg, hpredicted, allFinite_real, allFinite_real, hzero]
  by_cases hdegenerate : true = false ∨ (p.vector.all fun v ↦ decide (Scalar.Same v 0)) = true
  · rw [if_pos hdegenerate, if_pos hdegenerate]
    rfl
  rw [if_neg hdegenerate, if_neg hdegenerate]
  extract_lets slope turned d' d
  have hvector : F.vec d.vector = d'.vector := apply_ite F.vec (turned = true) _ _
  have hd : d' = d.inFrame F := by
    rw [Direction.inFrame, hvector]
    rfl
  rw [hd, apply_ite (DirectionAttempt.resultInFrame F)]
  rfl

/-- **An attempt on a rung comes to the same in every frame.** -/
theorem attempt_inFrame (solve : QpService σ ℝ) (options : Options ℝ) {level : Level}
    (hlevel : level = .random → F.rotation = 1) (μ : ℝ) (g : Generator) :
    (ctx.inFrame F).attempt solve options level (μ / F.unit) g
      = Prod.map (DirectionAttempt.inFrame F) id <$> ctx.attempt solve options level μ g := by
  rw [attempt, attempt, propose_inFrame F ctx solve options.steering hlevel, bind_map_left, map_bind]
  refine bind_congr fun answer ↦ ?_
  obtain ⟨e | p, g'⟩ := answer
  · rfl
  · dsimp only [Prod.map, Except.map]
    rw [judge_inFrame]
    rfl

end DirectionContext

/-! ## Stationarity -/

noncomputable def GradientSample.inFrame (s : GradientSample ℝ n) : GradientSample ℝ n where
  point := F.point s.point
  grad := scale (F.vec s.grad) F.unit
  violationGrad := F.vec s.violationGrad

theorem GradientSample.penaltyGradAt_inFrame (s : GradientSample ℝ n) (μ : ℝ) :
    (s.inFrame F).penaltyGradAt (μ / F.unit) = F.vec (s.penaltyGradAt μ) := by
  rw [penaltyGradAt, penaltyGradAt, F.vec_add, F.vec_scale, ← F.scale_scale_unit (F.vec s.grad) μ]
  rfl

theorem Observation.sample_inFrame (o : Observation ℝ n) :
    (o.inFrame F).sample = o.sample.inFrame F := by
  have hzero := o.penaltyGradAt_inFrame F 0
  rw [zero_div] at hzero
  rw [sample, sample, hzero]
  rfl

namespace GradientBundle

variable (b : GradientBundle ℝ n)

noncomputable def inFrame : GradientBundle ℝ n where
  samples := b.samples.map (·.inFrame F)
  capacity := b.capacity

theorem push_inFrame (o : Observation ℝ n) :
    (b.inFrame F).push (o.inFrame F) = (b.push o).inFrame F := by
  rw [push, push, o.sample_inFrame]
  show (⟨(if (b.samples.map (·.inFrame F)).length = b.capacity then (b.samples.map (·.inFrame F)).tail
    else b.samples.map (·.inFrame F)) ++ [o.sample.inFrame F], b.capacity⟩ : GradientBundle ℝ n) = _
  rw [List.length_map, ← List.map_tail, inFrame]
  split_ifs <;> simp

/-- The samples nearby are the same ones. -/
theorem nearby_inFrame (it : Iterate ℝ n) (radius : Extended ℝ) :
    (b.inFrame F).nearby (it.inFrame F) radius = (b.nearby it radius).map F.vec := by
  rw [nearby, nearby, List.map_filterMap, inFrame, List.filterMap_map]
  refine congrArg (List.filterMap · b.samples) (funext fun s ↦ ?_)
  have hdistance : norm₂ ((s.inFrame F).point - (it.inFrame F).point) = norm₂ (s.point - it.point) := by
    show norm₂ (F.point s.point - F.point it.point) = _
    rw [F.point_sub, F.norm₂_vec]
  dsimp only [Function.comp_apply]
  rw [hdistance]
  split_ifs
  · exact congrArg some (s.penaltyGradAt_inFrame F it.mu)
  · rfl

/-- The length of the shortest convex combination of gradients in the metric of `h`. -/
noncomputable def shortestLength {p : Nat} (solve : QpService σ ℝ) (grads : Vector (Vector ℝ n) p)
    (h : Mat ℝ n n) : StateM σ (Except QpError ℝ) := do
  let curved := h.mul (.ofColumns grads)
  return (← solve (shortestCombination grads curved)).map fun weights ↦ norm₂ (curved.mulVec weights)

section Measure

variable {b} (solve : QpService σ ℝ) {it : Iterate ℝ n} (h : Mat ℝ n n) {radius : Extended ℝ}

theorem measure_of_nil (hb : b.nearby it radius = []) :
    b.measure solve it h radius = pure ⟨norm₂ (h.mulVec it.penaltyGrad), 1, none⟩ := by
  rw [measure, hb]

theorem measure_of_cons {g : Vector ℝ n} {gs : List (Vector ℝ n)}
    (hb : b.nearby it radius = g :: gs) :
    b.measure solve it h radius = (do
      match ← shortestLength solve ⟨(it.penaltyGrad :: g :: gs).toArray, rfl⟩ h with
      | .ok length =>
        return ⟨Scalar.smaller length (norm₂ (h.mulVec it.penaltyGrad)), gs.length + 1 + 1, none⟩
      | .error e => return ⟨norm₂ (h.mulVec it.penaltyGrad), 1, some e⟩) := by
  rw [measure, hb]
  dsimp only
  rw [shortestLength, bind_assoc]
  refine bind_congr fun answer ↦ ?_
  rw [pure_bind]
  cases answer <;> rfl

end Measure

/-- The components of a vector that is made of a list. -/
theorem get_toArray_map {α β : Type} {f : α → β} {l : List α} {l' : List β} {p p' : Nat}
    (hl : l' = l.map f) (h : l.toArray.size = p) (h' : l'.toArray.size = p') (hp : p = p') (k : Fin p) :
    (⟨l'.toArray, h'⟩ : Vector β p').get (k.cast hp) = f ((⟨l.toArray, h⟩ : Vector α p).get k) := by
  subst hl h h'
  simp [get_eq]

/-- **The program of the shortest combination does not depend on the frame**, and neither does the
length.  The numbers of gradients are equal, but not by definition. -/
theorem shortestLength_inFrame {p p' : Nat} (hp : p = p') (solve : QpService σ ℝ)
    (grads : Vector (Vector ℝ n) p) (grads' : Vector (Vector ℝ n) p')
    (hgrads : ∀ k, grads'.get (k.cast hp) = F.vec (grads.get k)) (h : Mat ℝ n n) :
    shortestLength solve grads' (F.mat h) = shortestLength solve grads h := by
  subst hp
  have hcolumns : Mat.ofColumns grads' = F.columns (.ofColumns grads) := by
    refine Mat.toMatrix_injective ?_
    rw [F.toMatrix_columns, Mat.ofColumns, Mat.ofColumns, Mat.toMatrix_ofFn, Mat.toMatrix_ofFn]
    ext i k
    have hk : grads'.get k = F.vec (grads.get k) := hgrads k
    show (grads'.get k).get i = _
    rw [hk, F.get_vec]
    rfl
  have hentries : (Mat.ofFn fun i j ↦ plainSum fun l : Fin n ↦
        grads' i l * (F.columns (h.mul (.ofColumns grads))) l j)
      = Mat.ofFn fun i j ↦ plainSum fun l : Fin n ↦ grads i l * (h.mul (.ofColumns grads)) l j := by
    refine congrArg Mat.ofFn (funext fun i ↦ funext fun j ↦ ?_)
    rw [Mat.plainSum_column, Mat.plainSum_column, F.column_columns]
    exact (congrArg (plainDot · _) (hgrads i)).trans (F.plainDot_vec _ _)
  have hprogram : shortestCombination grads' (F.columns (h.mul (.ofColumns grads)))
      = shortestCombination grads (h.mul (.ofColumns grads)) :=
    congrArg (fun a ↦ (⟨Mat.symmetrized a, .replicate p 0, .simplex⟩ : QuadraticProgram ℝ p)) hentries
  rw [shortestLength, shortestLength, hcolumns, F.mul_mat, hprogram]
  refine bind_congr fun answer ↦ ?_
  simp only [F.mulVec_columns, F.norm₂_vec]

/-- **The stationarity measure does not depend on the frame.** -/
theorem measure_inFrame (solve : QpService σ ℝ) (it : Iterate ℝ n) (h : Mat ℝ n n)
    (radius : Extended ℝ) :
    (b.inFrame F).measure solve (it.inFrame F) (F.mat h) radius = b.measure solve it h radius := by
  have hnearby := b.nearby_inFrame F it radius
  have halone : norm₂ ((F.mat h).mulVec (it.inFrame F).penaltyGrad)
      = norm₂ (h.mulVec it.penaltyGrad) := by
    rw [it.penaltyGrad_inFrame, F.mulVec_mat, F.norm₂_vec]
  cases hb : b.nearby it radius with
  | nil =>
    rw [hb] at hnearby
    rw [measure_of_nil solve h hb, measure_of_nil solve (F.mat h) hnearby, halone]
  | cons g gs =>
    rw [hb] at hnearby
    have hlist : (it.inFrame F).penaltyGrad :: F.vec g :: gs.map F.vec
        = (it.penaltyGrad :: g :: gs).map F.vec := by
      rw [it.penaltyGrad_inFrame]
      rfl
    rw [measure_of_cons solve h hb, measure_of_cons solve (F.mat h) hnearby, halone, List.length_map,
      shortestLength_inFrame F (by simp) solve ⟨(it.penaltyGrad :: g :: gs).toArray, rfl⟩ _
        (fun k ↦ get_toArray_map hlist rfl rfl (by simp) k) h]

end GradientBundle

end ExactPenalty
