import Mathlib.Order.Defs.Unbundled
import Mathlib.Tactic.TypeStar

/-!
# Actions on a state

A run is an action on a state, and everything proved about runs is proved by looking at what one
action does to one state.  An action applied to a state is a pair, so the lemmas here are equations
between pairs: they hold by definition and serve to open `do` blocks one line at a time.  For actions
that can also fail, `run_bind_eq_ok` takes a sequence that succeeded apart.

Where only the state after an action matters, `Leads rel x` says that the action takes every state to
one that it is related to.  If the relation is reflexive and transitive, what the parts of a sequence
do, the sequence does.
-/

set_option autoImplicit false

namespace ExactPenalty

namespace Action

variable {σ α β : Type}

@[simp] theorem pure_apply (a : α) (s : σ) : (pure a : StateM σ α) s = (a, s) := rfl

@[simp] theorem bind_apply (x : StateM σ α) (f : α → StateM σ β) (s : σ) :
    (x >>= f) s = f (x s).1 (x s).2 := rfl

@[simp] theorem get_apply (s : σ) : (get : StateM σ σ) s = (s, s) := rfl

/-! ## Actions that can fail -/

section Failing

variable {ε : Type} (x : ExceptT ε (StateM σ) α) (f : α → ExceptT ε (StateM σ) β) (s : σ)

theorem run_bind_apply :
    (x >>= f).run s = match (x.run s).1 with
      | .ok a => (f a).run (x.run s).2
      | .error e => (.error e, (x.run s).2) := by
  show ExceptT.bindCont f (x.run s).1 (x.run s).2 = _
  cases (x.run s).1 <;> rfl

variable {x f s}

theorem run_bind_of_ok {a : α} {s₁ : σ} (hx : x.run s = (.ok a, s₁)) :
    (x >>= f).run s = (f a).run s₁ := by
  rw [run_bind_apply, hx]

/-- A sequence succeeds just where its first part does, and its second part from there on. -/
theorem run_bind_eq_ok {b : β} {s₂ : σ} :
    (x >>= f).run s = (.ok b, s₂) ↔
      ∃ a s₁, x.run s = (.ok a, s₁) ∧ (f a).run s₁ = (.ok b, s₂) := by
  rw [run_bind_apply]
  constructor
  · intro h
    cases hx : (x.run s).1 with
    | error e => rw [hx] at h; cases h
    | ok a => rw [hx] at h; exact ⟨a, _, Prod.ext hx rfl, h⟩
  · rintro ⟨a, s₁, hx, hf⟩
    rw [hx]
    exact hf

end Failing

/-! ## What an action does to the state -/

/-- The action takes every state to one that it is related to. -/
def Leads (rel : σ → σ → Prop) (x : StateM σ α) : Prop := ∀ s, rel s (x s).2

namespace Leads

variable {rel : σ → σ → Prop} [IsPreorder σ rel]

theorem pure (a : α) : Leads rel (pure a : StateM σ α) := fun s ↦ refl_of rel s

theorem get : Leads rel (get : StateM σ σ) := fun s ↦ refl_of rel s

theorem bind {x : StateM σ α} {f : α → StateM σ β} (hx : Leads rel x) (hf : ∀ a, Leads rel (f a)) :
    Leads rel (x >>= f) :=
  fun s ↦ trans_of rel (hx s) (hf _ _)

omit [IsPreorder σ rel] in
theorem ite {p : Prop} [Decidable p] {x y : StateM σ α} (hx : Leads rel x) (hy : Leads rel y) :
    Leads rel (if p then x else y) := by
  split
  · exact hx
  · exact hy

/-- A sequence that can fail stops with its first part or goes on with the second. -/
theorem run_bind {ε : Type} {x : ExceptT ε (StateM σ) α} {f : α → ExceptT ε (StateM σ) β}
    (hx : Leads rel x.run) (hf : ∀ a, Leads rel (f a).run) : Leads rel (x >>= f).run := by
  intro s
  rw [run_bind_apply]
  cases (x.run s).1 with
  | ok a => exact trans_of rel (hx s) (hf a _)
  | error e => exact hx s

end Leads

end Action

end ExactPenalty
