import ExactPenalty.Proofs.Attempts
import ExactPenalty.Proofs.Rounding.Factors
import ExactPenalty.Proofs.Run.Transcript
import ExactPenalty.Proofs.Search.Trials

/-!
# How the penalty parameter shrinks

Two things change the penalty parameter inside an iteration: a search along a steered direction, by
powers of one factor, and a reattempt, by another factor.  They may follow each other in any order, on
one rung and across the rungs.

`Shrunk` says how often a number was multiplied by each factor, and `IterationContext.Shrinks` that
this is what happened to the penalty parameter of a climb: by the factor of the iteration once for
every reattempt, and by the factor of steering no more often than the steered directions in the
transcript allow.  It is proved of one attempt, where all the cases are (`Attempted.shrinks`), and
lifted from there to the iteration (`shrinks_of_run_eq`).

No law of the arithmetic is used for any of this.  That the penalty parameter falls takes the laws of
`Scalar.Shrinks`, which rounded numbers keep (`Shrunk.le`).
-/

set_option autoImplicit false

namespace ExactPenalty

open Session ExactPenalty.Action

variable {σ R : Type} [Scalar R] {n : Nat}

/-! ## Two factors -/

/-- A number that was multiplied by the first factor and by the second one, so and so often, in some
order. -/
inductive Shrunk (c₁ c₂ μ : R) : (r k : Nat) → R → Prop where
  | refl : Shrunk c₁ c₂ μ 0 0 μ
  | first {r k : Nat} {ν : R} : Shrunk c₁ c₂ μ r k ν → Shrunk c₁ c₂ μ (r + 1) k (ν * c₁)
  | second {r k : Nat} {ν : R} : Shrunk c₁ c₂ μ r k ν → Shrunk c₁ c₂ μ r (k + 1) (ν * c₂)

namespace Shrunk

variable {c₁ c₂ μ ν ξ : R} {r r' k k' : Nat}

theorem trans (h : Shrunk c₁ c₂ μ r k ν) (h' : Shrunk c₁ c₂ ν r' k' ξ) :
    Shrunk c₁ c₂ μ (r + r') (k + k') ξ := by
  induction h' with
  | refl => exact h
  | first _ ih => exact ih.first
  | second _ ih => exact ih.second

theorem iterate (c₁ c₂ μ : R) (k : Nat) : Shrunk c₁ c₂ μ 0 k ((· * c₂)^[k] μ) := by
  induction k with
  | zero => exact .refl
  | succ k ih =>
    rw [Function.iterate_succ_apply']
    exact ih.second

/-- **Factors between zero and one do not raise a number**, and do not make it negative. -/
theorem le (laws : Scalar.Shrinks R) (h₁ : InOpenUnit c₁) (h₂ : InOpenUnit c₂) (hμ : 0 ≤ μ)
    (h : Shrunk c₁ c₂ μ r k ν) : 0 ≤ ν ∧ ν ≤ μ := by
  induction h with
  | refl => exact ⟨hμ, laws.le_refl hμ⟩
  | first _ ih => exact ⟨laws.mul_nonneg ih.1 h₁, laws.le_trans (laws.mul_le ih.1 h₁) ih.2⟩
  | second _ ih => exact ⟨laws.mul_nonneg ih.1 h₂, laws.le_trans (laws.mul_le ih.1 h₂) ih.2⟩

end Shrunk

/-! ## Steered directions -/

omit [Scalar R] in
/-- A direction was computed by steering. -/
def Event.isSteered : Event R n → Bool
  | attempted attempt => attempt.steered.isSome
  | _ => false

/-- The steered directions in the transcript. -/
def Session.steered (s : Session σ R n) : Nat := s.transcript.toList.countP (·.isSteered)

omit [Scalar R] in
theorem Session.Continues.steered_le {P : Event R n → Prop} {s s' : Session σ R n}
    (h : Session.Continues P s s') : s.steered ≤ s'.steered := by
  obtain ⟨events, hevents, -⟩ := h
  rw [steered, steered, hevents, List.countP_append]
  exact Nat.le_add_right _ _

/-! ## One attempt -/

namespace IterationContext

variable {it : IterationContext σ R n} {level : Level} {left : Nat} {c c' : Climb R n} {μ μ' : R}
    {d : Direction R n} {s s₁ s' : Session σ R n}

/-- What happens to the penalty parameter from one moment of a climb to a later one. -/
def Shrinks (it : IterationContext σ R n) (p p' : Climb R n × Session σ R n) : Prop :=
  ∃ r k, p'.1.reattempts = p.1.reattempts + r ∧
    Shrunk it.reattempts.factor it.options.steering.shrinkFactor p.1.mu r k p'.1.mu ∧
    it.options.steering.maxShrinks * p.2.steered + k
      ≤ it.options.steering.maxShrinks * p'.2.steered ∧
    (it.engaged = false → k = 0) ∧
    (r ≠ 0 → it.observation.isConstrained = true ∧ it.options.search.backtracking = false)

instance Shrinks.instIsPreorder (it : IterationContext σ R n) :
    IsPreorder (Climb R n × Session σ R n) it.Shrinks where
  refl _ := ⟨0, 0, rfl, .refl, le_rfl, fun _ ↦ rfl, fun h ↦ absurd rfl h⟩
  trans := by
    rintro p₁ p₂ p₃ ⟨r, k, hr, hmu, hk, hengaged, hagain⟩ ⟨r', k', hr', hmu', hk', hengaged', hagain'⟩
    refine ⟨r + r', k + k', by omega, hmu.trans hmu', by omega, fun h ↦ ?_, fun h ↦ ?_⟩
    · rw [hengaged h, hengaged' h]
    · by_cases hzero : r = 0
      · exact hagain' (by omega)
      · exact hagain hzero

/-- The penalty parameter stays as it is while the transcript grows. -/
theorem Shrinks.of_eq {P : Event R n → Prop} (hmu : c'.mu = c.mu)
    (hreattempts : c'.reattempts = c.reattempts) (h : Session.Continues P s s') :
    it.Shrinks (c, s) (c', s') :=
  ⟨0, 0, hreattempts, by rw [hmu]; exact .refl, Nat.mul_le_mul_left _ h.steered_le, fun _ ↦ rfl,
    fun h ↦ absurd rfl h⟩

/-- A search along a direction takes over its penalty parameter, if that is smaller. -/
theorem shrinks_searchAlong {result : SearchResult R n}
    (hd : it.makeDirection level c.mu s = (.ok d, s₁))
    (hs : it.searchAlong c d s₁ = ((result, c'), s')) : it.Shrinks (c, s) (c', s') := by
  have hgrows : s₁.steered ≤ s'.steered := by
    have hcontinues := it.respects_continues.leads_searchAlong c d s₁
    rw [hs] at hcontinues
    exact hcontinues.steered_le
  obtain ⟨attempt, hattempt, hresult, htranscript⟩ := exists_attempt_of_makeDirection hd
  have hmade : s₁.steered = s.steered + if attempt.steered.isSome then 1 else 0 := by
    rw [steered, htranscript, List.countP_append, List.countP_singleton]
    rfl
  obtain ⟨rfl, -⟩ := searchAlong_eq hs
  have hle : s.steered ≤ s'.steered := by omega
  have hkept : it.Shrinks (c, s) (c, s') :=
    ⟨0, 0, rfl, .refl, Nat.mul_le_mul_left _ hle, fun _ ↦ rfl, fun h ↦ absurd rfl h⟩
  rw [Climb.lowered]
  split_ifs with hlt
  -- a direction that was not steered has the penalty parameter in force, so nothing is lowered then
  · subst hattempt
    rcases DirectionContext.result_attempt_eq_ok hresult with
      hmu | ⟨hsteered, hengaged, k, hk, hmu⟩
    · rw [hmu]
      exact hkept
    · rw [hsteered, if_pos rfl] at hmade
      refine ⟨0, k, rfl, hmu ▸ Shrunk.iterate _ _ _ k, ?_, fun h ↦ ?_, fun h ↦ absurd rfl h⟩
      · have hmul := Nat.mul_le_mul_left it.options.steering.maxShrinks (hmade ▸ hgrows)
        rw [Nat.mul_add, Nat.mul_one] at hmul
        dsimp only
        omega
      · exact absurd (h.symm.trans hengaged) Bool.false_ne_true
  · exact hkept

/-- **What an attempt does to the penalty parameter.** -/
theorem Attempted.shrinks {e : Option (ClimbEnd R n)} (h : it.Attempted level left c s e c' s') :
    it.Shrinks (c, s) (c', s') := by
  have hcontinues := it.respects_continues.rel_attempted h
  have hsearched {d : Direction R n} {e : SearchError R n} {c₁ : Climb R n} {s₁ s₂ : Session σ R n}
      (hd : it.makeDirection level c.mu s = (.ok d, s₁))
      (hs : it.searchAlong c d s₁ = ((.error e, c₁), s₂)) :
      it.Shrinks (c, s) (c₁.searched d e, s₂) := by
    have hsearch := shrinks_searchAlong hd hs
    exact hsearch
  cases h with
  | qp | nonDescent | degenerate => exact .of_eq rfl rfl hcontinues
  | moved hd hs => exact shrinks_searchAlong hd hs
  | stopped hd hs | ascending hd hs | unacceptable hd hs | unbounded hd hs => exact hsearched hd hs
  | @again d s₁ e c₁ s₂ t hd hs hreason hconstrained hleft =>
    obtain ⟨-, s₃, s₄, hsearch, -⟩ := searchAlong_eq hs
    have hagain : it.Shrinks (c₁.searched d e, s₂) ((c₁.searched d e).reattempted _, _) :=
      ⟨1, 0, rfl, .first .refl, Nat.mul_le_mul_left _ (Session.Continues.note (P := fun _ ↦ True)
        (e := .reattempted level (it.reattempts.limit - (left - 1)) it.reattempts.limit
          ((c₁.searched d e).mu * it.reattempts.factor)) trivial s₂).steered_le,
        fun _ ↦ rfl, fun _ ↦ ⟨hconstrained, not_backtracking_of_notBracketed hsearch hreason⟩⟩
    exact trans_of it.Shrinks (hsearched hd hs) hagain

/-! ## An iteration -/

theorem Shrinks.failed (it : IterationContext σ R n) (c : Climb R n) (ladder : Ladder)
    (next : Transition) (s : Session σ R n) :
    it.Shrinks (c, s) (c, (note (.failed ladder next) s).2) :=
  .of_eq rfl rfl (Session.Continues.note (P := fun _ ↦ True) trivial s)

theorem shrinks_climbRound {a b : ClimbStage σ R n} (h : it.climbRound a = .inl b) :
    it.Shrinks (a.climb, a.session) (b.climb, b.session) := by
  have hround := rel_climbRound (f := Prod.mk) (fun h ↦ h.shrinks)
    (Shrinks.failed it) a
  rwa [h] at hround

/-- **What an iteration does to the penalty parameter**, whatever comes of it.  A move tells how often
a rung was tried again. -/
theorem shrinks_of_run_eq {answer : Except Termination (Move R n)}
    (h : it.run μ s = ((answer, μ'), s')) :
    ∃ c, μ' = c.mu ∧ it.Shrinks (.start μ, s) (c, s') ∧
      ∀ move, answer = .ok move → move.reattempts = c.reattempts :=
  rel_run (f := Prod.mk) (fun h ↦ h.shrinks) (Shrinks.failed it)
    (fun c reason s ↦ .of_eq rfl rfl (it.respects_continues.leads_force c reason s)) h

end IterationContext

/-- The factor of the reattempts is that of the first iteration, or that of the later ones. -/
theorem RunContext.reattemptFactor_climber {run : RunContext σ R n} (hoptions : run.options.IsValid)
    (a : Stage σ R n) : InOpenUnit (run.climber a).reattempts.factor := by
  show InOpenUnit (if _ then _ else _ : ReattemptOptions R).factor
  split_ifs
  · exact hoptions.firstReattemptFactor
  · exact hoptions.reattemptFactor

/-- **An iteration does not raise the penalty parameter**, and does not make it negative. -/
theorem RunContext.mu_le_of_shrinks {run : RunContext σ R n} {a : Stage σ R n}
    (laws : Scalar.Shrinks R) (hoptions : run.options.IsValid) (hmu : 0 ≤ a.progress.current.mu)
    {answer : Except Termination (Move R n)} {μ : R} {s : Session σ R n}
    (h : (run.climber a).run a.progress.current.mu (run.entered a) = ((answer, μ), s)) :
    0 ≤ μ ∧ μ ≤ a.progress.current.mu := by
  obtain ⟨c, rfl, ⟨_, _, -, hshrunk, -⟩, -⟩ := IterationContext.shrinks_of_run_eq h
  exact hshrunk.le laws (reattemptFactor_climber hoptions a) hoptions.shrinkFactor hmu

end ExactPenalty
