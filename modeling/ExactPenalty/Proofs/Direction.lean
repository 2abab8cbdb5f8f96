import Mathlib
import ExactPenalty.Direction
import ExactPenalty.Proofs.Steering

/-!
# What an attempt on a rung makes

`DirectionContext.judge` sorts a proposed vector into three: it is no direction, it is one that
ascends, or it is one that may be searched.  `judge_cases` says so once, with everything that the
direction carries, and no later proof opens the definition again.  `result_attempt` puts the
proposal in front of it; on the steering rungs, where steering is engaged, the proposal is what
`steer` returned (`propose_of_engaged`).
-/

set_option autoImplicit false

namespace ExactPenalty

open Linear Matrix ExactPenalty.Action

variable {σ : Type} {n : Nat}

/-- Directions that do not descend are let through: they may be searched. -/
def Options.lenient (o : Options ℝ) : Bool := decide (o.search.nondescentLimit ≠ 0)

/-- The direction carries the proposal, turned round at most if it was drawn at random, with the
slope of the penalty function along it. -/
structure DirectionContext.Carries (ctx : DirectionContext ℝ n) (level : Level) (p : Proposal ℝ n)
    (d : Direction ℝ n) : Prop where
  level_eq : d.level = level
  mu_eq : d.mu = p.mu
  engaged_eq : d.engaged = ctx.engaged
  slope_eq : d.slope = dot (ctx.observation.penaltyGradAt d.mu) d.vector
  ne_zero : d.vector.get ≠ 0
  vector_eq : d.vector = p.vector ∨ level = .random ∧ d.vector = -p.vector

namespace DirectionContext

variable {ctx : DirectionContext ℝ n} {lenient : Bool} {level : Level} {p : Proposal ℝ n}

theorem all_same_zero_iff (v : Vector ℝ n) :
    v.all (fun x ↦ decide (Scalar.Same x 0)) = true ↔ v.get = 0 := by
  rw [Vector.all_eq_true]
  simp only [Scalar.same_real, decide_eq_true_eq]
  exact ⟨fun h ↦ funext fun i ↦ h i i.isLt, fun h i hi ↦ congrFun h ⟨i, hi⟩⟩

/-- **The three answers of `judge`.** -/
theorem judge_cases (ctx : DirectionContext ℝ n) (lenient : Bool) (level : Level)
    (p : Proposal ℝ n) :
    (p.vector.get = 0 ∧ ctx.judge lenient level p = .error .degenerate) ∨
      ∃ d, ctx.Carries level p d ∧
        ((d.slope < 0 ∨ lenient = true) ∧ ctx.judge lenient level p = .ok d ∨
          0 ≤ d.slope ∧ lenient = false ∧ ctx.judge lenient level p = .error (.nonDescent d)) := by
  by_cases hzero : p.vector.get = 0
  · refine .inl ⟨hzero, ?_⟩
    rw [judge, if_pos (.inr ((all_same_zero_iff _).2 hzero))]
  refine .inr ?_
  have hne : ¬(allFinite p.vector = false ∨
      p.vector.all (fun v ↦ decide (Scalar.Same v 0)) = true) := by
    rw [allFinite_real, all_same_zero_iff]
    simp [hzero]
  rw [judge, if_neg hne]
  extract_lets slope turned d
  have hcarries : ctx.Carries level p d := by
    by_cases hturned : turned = true
    · have hrandom : level = .random := (of_decide_eq_true hturned).1
      have hvector : d.vector = -p.vector := (if_pos hturned).trans rfl
      have hslope : d.slope = -slope := if_pos hturned
      refine ⟨rfl, rfl, rfl, ?_, ?_, .inr ⟨hrandom, hvector⟩⟩
      · rw [hslope, hvector, dot_eq, get_neg, dotProduct_neg]
        exact congrArg _ (dot_eq _ _)
      · rw [hvector, get_neg, neg_ne_zero]
        exact hzero
    · have hvector : d.vector = p.vector := if_neg hturned
      have hslope : d.slope = slope := if_neg hturned
      refine ⟨rfl, rfl, rfl, ?_, hvector ▸ hzero, .inl hvector⟩
      rw [hslope, hvector]
  refine ⟨d, hcarries, ?_⟩
  by_cases hslope : d.slope < 0
  · exact .inl ⟨.inl hslope, if_pos (by simp [Direction.isDescent, hslope])⟩
  · cases lenient with
    | true => exact .inl ⟨.inr rfl, if_pos (by simp)⟩
    | false =>
      exact .inr ⟨not_lt.1 hslope, rfl, if_neg (by simp [Direction.isDescent, hslope])⟩

/-- A random direction is turned round if it ascends. -/
theorem judge_random {d : Direction ℝ n}
    (h : ctx.judge lenient .random p = .ok d ∨ ctx.judge lenient .random p = .error (.nonDescent d)) :
    d.slope ≤ 0 := by
  rw [judge] at h
  split_ifs at h with hnot
  · rcases h with h | h <;> cases h
  extract_lets slope turned direction at h
  have hd : d = direction := by
    rcases h with h | h <;> split_ifs at h
    · exact (Except.ok.inj h).symm
    · exact (DirectionError.nonDescent.inj (Except.error.inj h)).symm
  have hslope : d.slope = if turned = true then -slope else slope := by rw [hd]
  rw [hslope]
  split_ifs with hturned
  · exact (neg_neg_of_pos (of_decide_eq_true hturned).2).le
  · exact not_lt.1 fun hpos ↦ hturned (decide_eq_true ⟨rfl, hpos⟩)

/-- What is let through carries the proposal and descends, unless other directions are let through
as well. -/
theorem carries_of_judge_eq_ok {d : Direction ℝ n} (h : ctx.judge lenient level p = .ok d) :
    ctx.Carries level p d ∧ (d.slope < 0 ∨ lenient = true) := by
  rcases ctx.judge_cases lenient level p with ⟨_, hj⟩ | ⟨d', hd', ⟨hs, hj⟩ | ⟨_, _, hj⟩⟩
  · rw [hj] at h; cases h
  · rw [hj] at h; cases h; exact ⟨hd', hs⟩
  · rw [hj] at h; cases h

/-- What is refused for its slope carries the proposal and does not descend. -/
theorem carries_of_judge_eq_nonDescent {d : Direction ℝ n}
    (h : ctx.judge lenient level p = .error (.nonDescent d)) :
    ctx.Carries level p d ∧ 0 ≤ d.slope := by
  rcases ctx.judge_cases lenient level p with ⟨_, hj⟩ | ⟨d', hd', ⟨_, hj⟩ | ⟨hs, _, hj⟩⟩
  · rw [hj] at h; cases h
  · rw [hj] at h; cases h
  · rw [hj] at h; cases h; exact ⟨hd', hs⟩

/-- Only what was drawn at random is turned round. -/
theorem Carries.vector_eq_of_ne {d : Direction ℝ n} (h : ctx.Carries level p d)
    (hlevel : level ≠ .random) : d.vector = p.vector := by
  rcases h.vector_eq with hvector | ⟨hrandom, -⟩
  · exact hvector
  · exact absurd hrandom hlevel

/-- A proposal that descends is let through. -/
theorem judge_of_slope_neg (ctx : DirectionContext ℝ n) (lenient : Bool) (hlevel : level ≠ .random)
    (hslope : dot (ctx.observation.penaltyGradAt p.mu) p.vector < 0) :
    ∃ d, ctx.judge lenient level p = .ok d ∧ ctx.Carries level p d := by
  rcases ctx.judge_cases lenient level p with ⟨hzero, -⟩ | ⟨d, hd, ⟨-, hj⟩ | ⟨hnonneg, -, -⟩⟩
  · rw [dot_eq, hzero, dotProduct_zero] at hslope
    exact absurd hslope (lt_irrefl 0)
  · exact ⟨d, hj, hd⟩
  · rw [hd.slope_eq, hd.mu_eq, hd.vector_eq_of_ne hlevel] at hnonneg
    exact absurd hslope hnonneg.not_gt

/-! ## Attempts -/

variable {solve : QpService σ ℝ} {options : Options ℝ} {μ : ℝ} {g : Generator} {s : σ}

/-- An attempt judges what its rung proposes. -/
theorem result_attempt :
    (ctx.attempt solve options level μ g s).1.1.result
      = match (ctx.propose solve options.steering level μ g s).1.1 with
        | .error e => .error (.qp e)
        | .ok p => ctx.judge options.lenient level p := by
  rw [attempt, bind_apply]
  rcases ctx.propose solve options.steering level μ g s with ⟨⟨e | p, g'⟩, s'⟩ <;> rfl

/-- The matrix that a steering rung steers with. -/
noncomputable def steeringMatrix (ctx : DirectionContext ℝ n) (level : Level) : Mat ℝ n n :=
  if level = .steering then ctx.conditioned else .identity ℝ n

/-- Where steering is engaged, the steering rungs propose what `steer` returns. -/
theorem propose_of_engaged (hlevel : level.usesSteering = true) (hengaged : ctx.engaged = true) :
    (ctx.propose solve options.steering level μ g s).1.1
      = ((steer solve options.steering ctx.observation (ctx.steeringMatrix level) μ).run s).1.map
        fun out ↦ { vector := out.direction, mu := out.mu, steered := some out } := by
  cases level with
  | steering =>
    rw [propose]
    · rfl
    · exact hengaged
  | steeringIdentity =>
    rw [propose]
    · rfl
    · exact hengaged
  | quasiNewton => cases hlevel
  | steepestDescent => cases hlevel
  | random => cases hlevel

/-- What an attempt lets through carries some proposal, and descends unless directions that do not
descend are let through as well. -/
theorem exists_proposal {d : Direction ℝ n}
    (h : (ctx.attempt solve options level μ g s).1.1.result = .ok d) :
    ∃ p, (ctx.propose solve options.steering level μ g s).1.1 = .ok p ∧ ctx.Carries level p d ∧
      (d.slope < 0 ∨ options.lenient = true) := by
  rw [result_attempt] at h
  cases hp : (ctx.propose solve options.steering level μ g s).1.1 with
  | error e => rw [hp] at h; cases h
  | ok p =>
    rw [hp] at h
    exact ⟨p, rfl, carries_of_judge_eq_ok h⟩

/-- The proposal `−H ∇φ` of a positive definite matrix descends, unless the gradient is zero. -/
theorem result_quasiNewton (ctx : DirectionContext ℝ n) (solve : QpService σ ℝ)
    (options : Options ℝ) (g : Generator) (s : σ) (hcurvature : ctx.curvature.toMatrix.PosDef)
    (hgrad : (ctx.observation.penaltyGradAt μ).get ≠ 0) :
    ∃ d, (ctx.attempt solve options .quasiNewton μ g s).1.1.result = .ok d ∧ d.mu = μ ∧
      d.vector = -ctx.curvature.mulVec (ctx.observation.penaltyGradAt μ) ∧
      d.slope = dot (ctx.observation.penaltyGradAt μ) d.vector ∧ d.slope < 0 := by
  let gradient := ctx.observation.penaltyGradAt μ
  let p : Proposal ℝ n :=
    { vector := -ctx.curvature.mulVec gradient, mu := μ, steered := none }
  have hpos : 0 < gradient.get ⬝ᵥ ctx.curvature.toMatrix *ᵥ gradient.get :=
    hcurvature.dotProduct_mulVec_pos hgrad
  have hget : p.vector.get = -(ctx.curvature.toMatrix *ᵥ gradient.get) := by
    rw [get_neg, Mat.get_mulVec]
  have hslope : dot gradient p.vector < 0 := by
    rw [dot_eq, hget, dotProduct_neg]
    exact neg_neg_of_pos hpos
  have hlevel : Level.quasiNewton ≠ .random := (nomatch ·)
  obtain ⟨d, hj, hcarries⟩ :=
    judge_of_slope_neg (p := p) ctx options.lenient hlevel hslope
  have hvector : d.vector = p.vector := hcarries.vector_eq_of_ne hlevel
  have hslope_eq : d.slope = dot gradient d.vector := by rw [hcarries.slope_eq, hcarries.mu_eq]
  refine ⟨d, ?_, hcarries.mu_eq, hvector, hslope_eq, by rwa [hslope_eq, hvector]⟩
  rw [result_attempt]
  exact hj

end DirectionContext

end ExactPenalty
