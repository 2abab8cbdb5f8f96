import ExactPenalty.Proofs.Action
import ExactPenalty.Proofs.Machine

/-!
# Two runs in step

To compare two runs is to show that they do the same as long as both of them go on.  They need not
share their states, so the states are compared by a relation; and one of them may be cut off, and then
nothing more is said.

## What is here

* `Agree x y` — two actions give the same answer from any two states.
* `InStep rel cut x y` — from related states two actions give the same answer and lead to related
  states, unless the answer of one of them is cut off.  Sequences of such actions are in step
  (`InStep.bind`).
* `Mirrors rel f x y` — the second action gives what the first one gives, translated by `f`.
* `CutsShort cut x y` — from the same state the first action does what the second one does, or it is cut
  off.
* `Ends.together` — two loops whose rounds are in step come to matching results.
* `Ends.follow` — a loop whose rounds follow those of another one does so until the other one ends.
* `Path.together` — their states match one by one, as far as the shorter of the two paths goes.
* `Path.cutsShort` — a loop that is only cut short passes the first states of the other one.
-/

set_option autoImplicit false

namespace ExactPenalty

namespace Action

variable {S T α β : Type}

/-! ## The same answers -/

/-- The two actions give the same answer, whatever their states. -/
def Agree (x : StateM S α) (y : StateM T α) : Prop := ∀ s t, (x s).1 = (y t).1

namespace Agree

theorem pure (a : α) : Agree (pure a : StateM S α) (pure a : StateM T α) := fun _ _ ↦ rfl

/-- Sequences that can fail agree if their parts do. -/
theorem run_bind {ε : Type} {x : ExceptT ε (StateM S) α} {y : ExceptT ε (StateM T) α}
    {f : α → ExceptT ε (StateM S) β} {g : α → ExceptT ε (StateM T) β} (hx : Agree x.run y.run)
    (hf : ∀ a, Agree (f a).run (g a).run) : Agree (x >>= f).run (y >>= g).run := by
  intro s t
  rw [run_bind_apply, run_bind_apply, hx s t]
  cases (y.run t).1 with
  | ok a => exact hf a _ _
  | error e => rfl

end Agree

/-! ## In step -/

variable {rel : S → T → Prop} {cut : α → Prop} {cut' : β → Prop}

/-- Two answers are the same and leave related states, unless one of them is cut off. -/
def Matches (rel : S → T → Prop) (cut : α → Prop) (r : α × S) (r' : α × T) : Prop :=
  cut r.1 ∨ cut r'.1 ∨ (r.1 = r'.1 ∧ rel r.2 r'.2)

/-- From related states the two actions come to matching answers. -/
def InStep (rel : S → T → Prop) (cut : α → Prop) (x : StateM S α) (y : StateM T α) : Prop :=
  ∀ s t, rel s t → Matches rel cut (x s) (y t)

namespace InStep

theorem pure (a : α) :
    InStep rel cut (pure a : StateM S α) (pure a : StateM T α) :=
  fun _ _ h ↦ .inr (.inr ⟨rfl, h⟩)

/-- Answers that are cut off match whatever the states are. -/
theorem of_cut {x : StateM S α} {y : StateM T α} (hx : ∀ s, cut (x s).1) : InStep rel cut x y :=
  fun s _ _ ↦ .inl (hx s)

/-- What is cut off in the first part of a sequence is cut off in the whole. -/
theorem bind {x : StateM S α} {y : StateM T α} {f : α → StateM S β} {g : α → StateM T β}
    (hx : InStep rel cut x y) (hcut : ∀ a, cut a → (∀ s, cut' (f a s).1) ∧ ∀ t, cut' (g a t).1)
    (hf : ∀ a, InStep rel cut' (f a) (g a)) : InStep rel cut' (x >>= f) (y >>= g) := by
  intro s t h
  rw [bind_apply, bind_apply]
  rcases hx s t h with hleft | hright | ⟨hanswer, hstate⟩
  · exact .inl ((hcut _ hleft).1 _)
  · exact .inr (.inl ((hcut _ hright).2 _))
  · rw [hanswer]
    exact hf _ _ _ hstate

/-- A sequence whose first part is never cut off. -/
theorem bind_of_false {x : StateM S α} {y : StateM T α} {f : α → StateM S β} {g : α → StateM T β}
    (hx : InStep rel (fun _ ↦ False) x y) (hf : ∀ a, InStep rel cut' (f a) (g a)) :
    InStep rel cut' (x >>= f) (y >>= g) :=
  hx.bind (fun _ h ↦ h.elim) hf

end InStep

/-! ## Translated answers -/

variable {α' β' : Type} {f : α → α'} {g : β → β'}

/-- The second answer is the first one, translated, and the states are related. -/
def Mirrored (rel : S → T → Prop) (f : α → α') (r : α × S) (r' : α' × T) : Prop :=
  r'.1 = f r.1 ∧ rel r.2 r'.2

/-- From related states the second action gives what the first one gives, translated. -/
def Mirrors (rel : S → T → Prop) (f : α → α') (x : StateM S α) (y : StateM T α') : Prop :=
  ∀ s t, rel s t → Mirrored rel f (x s) (y t)

namespace Mirrors

theorem pure {a : α} {b : α'} (h : b = f a) :
    Mirrors rel f (pure a : StateM S α) (pure b : StateM T α') :=
  fun _ _ hrel ↦ ⟨h, hrel⟩

/-- A sequence, whose second part starts from an answer that the first part gives. -/
theorem bind_of_answer {x : StateM S α} {y : StateM T α'} {k : α → StateM S β}
    {k' : α' → StateM T β'} (hx : Mirrors rel f x y)
    (hk : ∀ a s s', x s = (a, s') → Mirrors rel g (k a) (k' (f a))) :
    Mirrors rel g (x >>= k) (y >>= k') := by
  intro s t hrel
  obtain ⟨hanswer, hstates⟩ := hx s t hrel
  rw [bind_apply, bind_apply, hanswer]
  exact hk _ _ _ rfl _ _ hstates

theorem bind {x : StateM S α} {y : StateM T α'} {k : α → StateM S β} {k' : α' → StateM T β'}
    (hx : Mirrors rel f x y) (hk : ∀ a, Mirrors rel g (k a) (k' (f a))) :
    Mirrors rel g (x >>= k) (y >>= k') :=
  hx.bind_of_answer fun a _ _ _ ↦ hk a

/-- An answer that is made of the state. -/
theorem get_bind {k : S → StateM S α} {k' : T → StateM T α'}
    (hk : ∀ s t, rel s t → Mirrored rel f (k s s) (k' t t)) :
    Mirrors rel f (get >>= k) (get >>= k') := hk

end Mirrors

/-- The same answers are the ones that are never cut off. -/
theorem mirrors_id_iff {x : StateM S α} {y : StateM T α} :
    Mirrors rel id x y ↔ InStep rel (fun _ ↦ False) x y := by
  refine forall_congr' fun s ↦ forall_congr' fun t ↦ forall_congr' fun _ ↦ ⟨fun h ↦ ?_, fun h ↦ ?_⟩
  · exact .inr (.inr ⟨h.1.symm, h.2⟩)
  · obtain hleft | hright | ⟨hanswer, hstates⟩ := h
    · exact hleft.elim
    · exact hright.elim
    · exact ⟨hanswer.symm, hstates⟩

/-! ## Cut short -/

/-- From every state the first action does what the second one does, unless it is cut off. -/
def CutsShort (cut : α × S → Prop) (x y : StateM S α) : Prop := ∀ s, x s = y s ∨ cut (x s)

namespace CutsShort

variable {cut : α × S → Prop} {cut' : β × S → Prop}

theorem refl (x : StateM S α) : CutsShort cut x x := fun _ ↦ .inl rfl

/-- What is cut off in the first part of a sequence is cut off in the whole. -/
theorem bind {x y : StateM S α} {f g : α → StateM S β} (hx : CutsShort cut x y)
    (hcut : ∀ a s, cut (a, s) → cut' (f a s)) (hf : ∀ a, CutsShort cut' (f a) (g a)) :
    CutsShort cut' (x >>= f) (y >>= g) := by
  intro s
  rw [bind_apply, bind_apply]
  rcases hx s with hsame | hleft
  · rw [hsame]
    exact hf _ _
  · exact .inr (hcut _ _ hleft)

/-- A sequence with the same first part. -/
theorem bind_same {x : StateM S α} {f g : α → StateM S β} (hf : ∀ a, CutsShort cut' (f a) (g a)) :
    CutsShort cut' (x >>= f) (x >>= g) := fun _ ↦ hf _ _

end CutsShort

end Action

/-! ## Loops in step -/

section Loops

variable {S T A B : Type} {step : S → S ⊕ A} {step' : T → T ⊕ B} {rel : S → T → Prop}
    {post : A → B → Prop}

/-- What two rounds come to: both go on to related states, both end with matching results, or one of
them ends with a result that matches any other. -/
inductive Together (rel : S → T → Prop) (post : A → B → Prop) : S ⊕ A → T ⊕ B → Prop where
  | next {a : S} {b : T} : rel a b → Together rel post (.inl a) (.inl b)
  | done {r : A} {r' : B} : post r r' → Together rel post (.inr r) (.inr r')
  | left {r : A} {b : T} : (∀ r', post r r') → Together rel post (.inr r) (.inl b)
  | right {a : S} {r' : B} : (∀ r, post r r') → Together rel post (.inl a) (.inr r')

namespace Together

theorem of_left {r : A} (h : ∀ r', post r r') (y : T ⊕ B) : Together rel post (.inr r) y := by
  cases y with
  | inl b => exact .left h
  | inr r' => exact .done (h r')

theorem of_right {r' : B} (h : ∀ r, post r r') (x : S ⊕ A) : Together rel post x (.inr r') := by
  cases x with
  | inl a => exact .right h
  | inr r => exact .done (h r)

end Together

/-- **Loops whose rounds are in step come to matching results.** -/
theorem Ends.together {a : S} {b : T} {r : A} {r' : B}
    (hround : ∀ a b, rel a b → Together rel post (step a) (step' b)) (ha : Ends step a r)
    (hb : Ends step' b r') (hab : rel a b) : post r r' := by
  obtain ⟨as, has⟩ := ha
  obtain ⟨bs, hbs⟩ := hb
  induction as generalizing a b bs with
  | nil =>
    have hfirst := hround a b hab
    cases has with
    | last hr =>
      rw [hr] at hfirst
      cases hbs with
      | last hr' =>
        rw [hr'] at hfirst
        cases hfirst with
        | done h => exact h
      | cons hb' _ =>
        rw [hb'] at hfirst
        cases hfirst with
        | left h => exact h r'
  | cons c as ih =>
    have hfirst := hround a b hab
    cases has with
    | cons ha' hrest =>
      rw [ha'] at hfirst
      cases hbs with
      | last hr' =>
        rw [hr'] at hfirst
        cases hfirst with
        | right h => exact h r
      | cons hb' hrest' =>
        rw [hb'] at hfirst
        cases hfirst with
        | next h => exact ih h hrest _ hrest'

/-- A loop whose rounds follow those of another one comes along to the round that ends the other. -/
theorem Ends.follow {a : S} {b : T} {r : A} {r' : B}
    (hround : ∀ a b a', rel a b → step a = .inl a' → ∃ b', step' b = .inl b' ∧ rel a' b')
    (ha : Ends step a r) (hb : Ends step' b r') (hab : rel a b) :
    ∃ a' b', rel a' b' ∧ step a' = .inr r ∧ Ends step' b' r' := by
  obtain ⟨as, has⟩ := ha
  induction as generalizing a b with
  | nil =>
    cases has with
    | last hr => exact ⟨a, b, hab, hr, hb⟩
  | cons c as ih =>
    cases has with
    | cons hfirst hrest =>
      obtain ⟨b', hb', hrel⟩ := hround a b c hab hfirst
      exact ih (hb.tail hb') hrel hrest

/-- **The states of two loops match one by one**, as far as both of them go, if every two rounds that
go on from related states lead to related states. -/
theorem Path.together {a : S} {as : List S} {r : A} {b : T} {bs : List T} {r' : B}
    (hround : ∀ a b a' b', rel a b → step a = .inl a' → step' b = .inl b' → rel a' b')
    (has : Path step (a :: as) r) (hbs : Path step' (b :: bs) r') (hab : rel a b) :
    ∀ (k : Nat) a' b', (a :: as)[k]? = some a' → (b :: bs)[k]? = some b' → rel a' b' := by
  induction as generalizing a b bs with
  | nil =>
    intro k a' b' ha' hb'
    cases k with
    | zero =>
      cases ha'
      cases hb'
      exact hab
    | succ k => cases ha'
  | cons c as ih =>
    intro k a' b' ha' hb'
    cases k with
    | zero =>
      cases ha'
      cases hb'
      exact hab
    | succ k =>
      cases hbs with
      | last _ => cases hb'
      | cons hround' hrest' =>
        cases has with
        | cons hround'' hrest =>
          exact ih hrest hrest' (hround a b c _ hab hround'' hround') k a' b' ha' hb'

/-- **A loop that is only cut short passes the first states of the other one**, and comes to the same
result unless it is cut. -/
theorem Path.cutsShort {step' : S → S ⊕ A} {p : A → Prop} {a : S} {as bs : List S} {r r' : A}
    (hround : ∀ a, step a = step' a ∨ ∃ r, step a = .inr r ∧ p r) (has : Path step (a :: as) r)
    (hbs : Path step' (a :: bs) r') : as <+: bs ∧ (as = bs ∧ r = r' ∨ p r) := by
  induction as generalizing a bs with
  | nil =>
    cases has with
    | last hr =>
      refine ⟨List.nil_prefix, ?_⟩
      rcases hround a with hsame | ⟨r₁, hr₁, hcut⟩
      · rw [hsame] at hr
        cases hbs with
        | last hr' => exact .inl ⟨rfl, Sum.inr.inj (hr.symm.trans hr')⟩
        | cons hnext _ => cases hr.symm.trans hnext
      · cases hr.symm.trans hr₁
        exact .inr hcut
  | cons c as ih =>
    cases has with
    | cons hnext hrest =>
      rcases hround a with hsame | ⟨r₁, hr₁, -⟩
      · rw [hsame] at hnext
        cases hbs with
        | last hr' => cases hnext.symm.trans hr'
        | cons hnext' hrest' =>
          cases hnext.symm.trans hnext'
          obtain ⟨hbegins, hend⟩ := ih hrest hrest'
          refine ⟨List.cons_prefix_cons.2 ⟨rfl, hbegins⟩, hend.imp_left fun h ↦ ?_⟩
          exact ⟨congrArg (c :: ·) h.1, h.2⟩
      · cases hnext.symm.trans hr₁

theorem Ends.cutsShort {step' : S → S ⊕ A} {p : A → Prop} {a : S} {r r' : A}
    (hround : ∀ a, step a = step' a ∨ ∃ r, step a = .inr r ∧ p r) (ha : Ends step a r)
    (hb : Ends step' a r') : r = r' ∨ p r := by
  obtain ⟨as, has⟩ := ha
  obtain ⟨bs, hbs⟩ := hb
  exact (has.cutsShort hround hbs).2.imp_left And.right

end Loops

end ExactPenalty
