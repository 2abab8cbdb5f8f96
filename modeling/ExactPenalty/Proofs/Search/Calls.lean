import ExactPenalty.Proofs.Search.Lookups

/-!
# How often a search asks

A bracketing search doubles the step while no step was too long and bisects the bracket from then on.
Each look-up is followed by one or the other, and both are limited, so the search makes one look-up more
than both limits together allow, at most, in whatever order they come.  A backtracking search makes one
look-up for each step that it tries.

Here every look-up counts, the one that meets the end of the budget too: `Oracle.Counts` is a quantity of
the state that every look-up raises by one.  `Bracket.callsLeft` bounds the look-ups to come, and a round
uses up one of them (`calls_bracketRound`, `calls_halvingRound`).
-/

set_option autoImplicit false

namespace ExactPenalty

open ExactPenalty.Action

variable {σ R : Type} {n : Nat}

/-- A quantity of the state that counts the look-ups. -/
def Oracle.Counts (ask : Oracle σ R n) (calls : σ → Nat) : Prop :=
  ∀ x s, calls (ask x s).2 = calls s + 1

variable [Scalar R] {ask : Oracle σ R n} {calls : σ → Nat} {task : SearchTask R n}
    {o : SearchOptions R}

omit [Scalar R] in
theorem Oracle.Counts.eq (hask : ask.Counts calls) {x : Vector R n} {answer : Lookup R n} {s s' : σ}
    (h : ask x s = (answer, s')) : calls s' = calls s + 1 := by
  rw [← hask x s, h]

/-! ## The bracketing search -/

/-- The look-ups that a bracketing search may still make. -/
def Bracket.callsLeft (limits : BracketLimits) (b : Bracket R n) : Nat :=
  let rounds := limits.bisections + limits.expansions + 1 - (b.bisections + b.expansions)
  match limits.evaluations with
  | some cap => min (cap - b.evaluations) rounds
  | none => rounds

/-- A look-up is followed by a bisection or by an expansion. -/
theorem Bracket.rounds_after (b : Bracket R n) (trial : Option (Trial R n)) (tooLong : Bool) :
    (b.after trial tooLong).bisections + (b.after trial tooLong).expansions
      = b.bisections + b.expansions + 1 := by
  have hbisections : ((b.counted trial).narrowed tooLong).bisections = b.bisections := by
    rw [narrowed]
    split <;> rfl
  have hexpansions : ((b.counted trial).narrowed tooLong).expansions = b.expansions := by
    rw [narrowed]
    split <;> rfl
  rw [after, advanced]
  split <;> simp only [hbisections, hexpansions] <;> omega

/-- A search that may go on may make a look-up, and one less after it. -/
theorem Bracket.callsLeft_after {limits : BracketLimits} {b : Bracket R n}
    (h : b.MayContinue limits) (trial : Option (Trial R n)) (tooLong : Bool) :
    (b.after trial tooLong).callsLeft limits + 1 = b.callsLeft limits := by
  obtain ⟨hcap, hbisections, hexpansions⟩ := h
  rw [callsLeft, callsLeft, b.rounds_after, b.evaluations_after]
  cases hlimit : limits.evaluations with
  | none =>
    dsimp only
    omega
  | some cap =>
    rw [hlimit] at hcap
    have hlt : b.evaluations < cap := hcap
    dsimp only
    omega

theorem calls_bracketRound (hask : ask.Counts calls) (limits : BracketLimits)
    (a : Bracket R n × σ) :
    calls a.2 + a.1.callsLeft limits ≥ (bracketRound ask task o limits a).elim
      (fun b ↦ calls b.2 + b.1.callsLeft limits) fun r ↦ calls r.2 := by
  rw [bracketRound]
  split_ifs with hcontinue
  · have hleft := a.1.callsLeft_after hcontinue
    rcases hanswer : ask (task.pointAt a.1.step) a.2 with ⟨observation | _ | _, s⟩ <;>
      have hcalls := hask.eq hanswer
    · dsimp only
      generalize Trial.ofObservation task a.1.step observation = trial
      have hlong := hleft (some trial) true
      have hshort := hleft (some trial) false
      cases task.verdict o trial <;> simp only [Sum.elim_inl, Sum.elim_inr] <;> omega
    · have hrejected := hleft none true
      simp only [Sum.elim_inl]
      omega
    · have hstopped := hleft none true
      simp only [Sum.elim_inr]
      omega
  · exact Nat.le_add_right _ _

/-- The look-ups that a bracketing search may make: one more than the doublings and the bisections,
within the cap that the slope of the direction calls for. -/
def SearchTask.bracketingLimit (task : SearchTask R n) (o : SearchOptions R) : Nat :=
  let steps := bisectionLimit (Linear.norm₂ task.direction)
    + expansionLimit (Linear.norm₂ task.direction) + 1
  match task.evaluationCap o with
  | some cap => min cap steps
  | none => steps

/-- **A bracketing search keeps to its limit.** -/
theorem calls_weakWolfe_le (hask : ask.Counts calls) (task : SearchTask R n) (o : SearchOptions R)
    (s : σ) : calls (weakWolfe ask task o s).2 ≤ calls s + task.bracketingLimit o := by
  have hends : Ends (bracketRound ask task o (task.bracketLimits o)) (.start o.initialStep, s)
      (weakWolfe ask task o s) := ends_searchBracket _ _
  exact hends.rel (f := fun a ↦ calls a.2 + a.1.callsLeft (task.bracketLimits o))
    (g := fun r ↦ calls r.2) (calls_bracketRound hask _)

/-! ## The backtracking search -/

theorem calls_halvingRound (hask : ask.Counts calls) (exhausted : SearchFailure R)
    (a : Halving R n × σ) :
    calls a.2 + a.1.left ≥ (halvingRound ask task o exhausted a).elim
      (fun b ↦ calls b.2 + b.1.left) fun r ↦ calls r.2 := by
  rw [halvingRound]
  split_ifs with hleft
  · exact Nat.le_add_right _ _
  · have hafter (trial : Option (Trial R n)) : (a.1.after trial).left + 1 = a.1.left :=
      Nat.succ_pred_eq_of_ne_zero hleft
    rcases hanswer : ask (task.pointAt a.1.step) a.2 with ⟨observation | _ | _, s⟩ <;>
      have hcalls := hask.eq hanswer
    · have hrefused := hafter (some (.ofObservation task a.1.step observation))
      dsimp only
      split_ifs <;> simp only [Sum.elim_inl, Sum.elim_inr] <;> omega
    · have hrejected := hafter none
      simp only [Sum.elim_inl]
      omega
    · simp only [Sum.elim_inr]
      omega

/-- **A backtracking search keeps to its limit.** -/
theorem calls_backtracking_le (hask : ask.Counts calls) (task : SearchTask R n)
    (o : SearchOptions R) (s : σ) :
    calls (backtracking ask task o s).2 ≤ calls s + task.backtrackingLimit o := by
  have hends := ends_halveFrom ask (task.forBacktracking o) o
    (if 0 ≤ task.slope then .nonDescent else .armijoNotSatisfied)
    ⟨task.backtrackingLimit o, 0, o.initialStep, none⟩ s
  exact hends.rel (f := fun a ↦ calls a.2 + a.1.left) (g := fun r ↦ calls r.2)
    (calls_halvingRound hask _)

end ExactPenalty
