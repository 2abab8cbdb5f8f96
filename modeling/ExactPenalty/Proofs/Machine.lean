import Mathlib.Data.List.Chain
import Mathlib.Order.Defs.Unbundled

/-!
# Loops as machines

The loops of the method are recursive actions.  What is proved about them is proved of one round: a
function that takes a state to the next one, or to the result.  `Path step as r` says that the rounds
lead through the states `as` to the result `r`.  Whatever a round preserves holds at all of them
(`Path.forall_mem`), also where it speaks of the states before (`Path.forall_take`), and a preorder that
every round respects relates them all (`Path.rel`).
-/

set_option autoImplicit false

namespace ExactPenalty

variable {S A : Type} {step : S → S ⊕ A}

/-- The states that a loop passes, and the result it comes to. -/
inductive Path (step : S → S ⊕ A) : List S → A → Prop where
  | last {a : S} {r : A} : step a = .inr r → Path step [a] r
  | cons {a b : S} {bs : List S} {r : A} :
      step a = .inl b → Path step (b :: bs) r → Path step (a :: b :: bs) r

/-- The loop comes to the result from the state. -/
def Ends (step : S → S ⊕ A) (a : S) (r : A) : Prop := ∃ as, Path step (a :: as) r

namespace Path

variable {a : S} {as : List S} {r : A}

theorem isChain (h : Path step as r) : as.IsChain fun a b ↦ step a = .inl b := by
  induction h with
  | last _ => exact .singleton _
  | cons hround _ ih => exact .cons_cons hround ih

/-- A round leads from each position of a path to the next one. -/
theorem step_of_getElem? {k : Nat} {b : S} (h : Path step as r) (ha : as[k]? = some a)
    (hb : as[k + 1]? = some b) : step a = .inl b := by
  induction h generalizing k with
  | last _ => simp at hb
  | cons hround _ ih =>
    cases k with
    | zero =>
      cases ha
      cases hb
      exact hround
    | succ k => exact ih ha hb

/-- The last position of a path leads to the result. -/
theorem step_of_getElem?_none {k : Nat} (h : Path step as r) (ha : as[k]? = some a)
    (hend : as[k + 1]? = none) : step a = .inr r := by
  induction h generalizing k with
  | last hr =>
    cases k with
    | zero =>
      cases ha
      exact hr
    | succ k => simp at ha
  | cons _ _ ih =>
    cases k with
    | zero => simp at hend
    | succ k => exact ih ha hend

theorem exists_last_getElem? (h : Path step as r) :
    ∃ k b, as.length = k + 1 ∧ as[k]? = some b ∧ step b = .inr r := by
  induction h with
  | last hr => exact ⟨0, _, rfl, rfl, hr⟩
  | cons _ _ ih =>
    obtain ⟨k, b, hlength, hb, hr⟩ := ih
    exact ⟨k + 1, b, congrArg (· + 1) hlength, hb, hr⟩

theorem exists_last (h : Path step as r) : ∃ b ∈ as, step b = .inr r := by
  obtain ⟨_, b, -, hb, hr⟩ := h.exists_last_getElem?
  exact ⟨b, List.mem_of_getElem? hb, hr⟩

/-- What every round on a path preserves holds at every state of the path. -/
theorem forall_mem {P : S → Prop} (h : Path step (a :: as) r)
    (hstep : ∀ x y, y ∈ as → step x = .inl y → P x → P y) (ha : P a) : ∀ b ∈ a :: as, P b := by
  have hchain : (a :: as).IsChain fun x y ↦ y ∈ as ∧ step x = .inl y :=
    h.isChain.imp_of_mem_tail_imp fun _ _ _ hy hround ↦ ⟨hy, hround⟩
  exact hchain.induction P _ (fun {x y} hxy hx ↦ hstep x y hxy.1 hxy.2 hx) fun _ ↦ ha

/-- What every round on a path preserves, given the states before it, holds at every position. -/
theorem forall_take {P : List S → S → Prop} (h : Path step (a :: as) r)
    (hstep : ∀ earlier x y, step x = .inl y → P earlier x → P (earlier ++ [x]) y) (ha : P [] a) {k : Nat}
    {b : S} (hb : (a :: as)[k]? = some b) : P ((a :: as).take k) b := by
  induction k generalizing b with
  | zero =>
    cases hb
    exact ha
  | succ k ih =>
    have hlt : k < (a :: as).length := by
      have hlast := (List.getElem?_eq_some_iff.1 hb).1
      omega
    have hbefore : (a :: as)[k]? = some (a :: as)[k] := List.getElem?_eq_getElem hlt
    rw [List.take_add_one, hbefore]
    exact hstep _ _ _ (h.step_of_getElem? hbefore hb) (ih hbefore)

/-- Consecutive states of a path are a state with the preserved property and the next one. -/
theorem isChain_and {P : S → Prop} (h : Path step (a :: as) r)
    (hstep : ∀ x y, step x = .inl y → P x → P y) (ha : P a) :
    (a :: as).IsChain fun x y ↦ P x ∧ step x = .inl y :=
  h.isChain.imp_of_mem_imp fun x _ hmem _ hround ↦
    ⟨h.forall_mem (fun x y _ ↦ hstep x y) ha x hmem, hround⟩

/-- If every round respects a preorder on what is seen of a state, so does the path. -/
theorem rel {T : Type} {rel : T → T → Prop} [IsPreorder T rel] {f : S → T} {g : A → T}
    (h : Path step (a :: as) r) (hstep : ∀ b ∈ a :: as, rel (f b) ((step b).elim f g)) :
    ∀ b ∈ a :: as, rel (f a) (f b) ∧ rel (f b) (g r) := by
  induction as generalizing a with
  | nil =>
    cases h with
    | last hr =>
      intro b hb
      rw [List.mem_singleton.1 hb]
      have hlast := hstep a List.mem_cons_self
      rw [hr] at hlast
      exact ⟨refl_of rel _, hlast⟩
  | cons c as ih =>
    cases h with
    | cons hround hc =>
      have hnext := hstep a List.mem_cons_self
      rw [hround] at hnext
      have htail := ih hc fun b hb ↦ hstep b (List.mem_cons_of_mem _ hb)
      intro b hb
      rcases List.mem_cons.1 hb with rfl | hb
      · exact ⟨refl_of rel _, trans_of rel hnext (htail c List.mem_cons_self).2⟩
      · exact ⟨trans_of rel hnext (htail b hb).1, (htail b hb).2⟩

end Path

namespace Ends

variable {a b : S} {r : A}

theorem done (h : step a = .inr r) : Ends step a r := ⟨[], .last h⟩

theorem next (h : step a = .inl b) (hb : Ends step b r) : Ends step a r := by
  obtain ⟨bs, hbs⟩ := hb
  exact ⟨b :: bs, .cons h hbs⟩

theorem tail (h : Ends step a r) (hab : step a = .inl b) : Ends step b r := by
  obtain ⟨as, has⟩ := h
  cases has with
  | last hr => cases hab.symm.trans hr
  | cons hround hrest =>
    cases hab.symm.trans hround
    exact ⟨_, hrest⟩

theorem result {r' : A} (h : Ends step a r) (har : step a = .inr r') : r = r' := by
  obtain ⟨as, has⟩ := h
  cases has with
  | last hr => exact Sum.inr.inj (hr.symm.trans har)
  | cons hround _ => cases har.symm.trans hround

/-- What every round preserves holds at the state that gives the result. -/
theorem exists_last {P : S → Prop} (h : Ends step a r)
    (hstep : ∀ a b, step a = .inl b → P a → P b) (ha : P a) : ∃ b, P b ∧ step b = .inr r := by
  obtain ⟨as, has⟩ := h
  obtain ⟨b, hb, hr⟩ := has.exists_last
  exact ⟨b, has.forall_mem (fun x y _ ↦ hstep x y) ha b hb, hr⟩

/-- If every round respects a preorder on what is seen of a state, so does the loop. -/
theorem rel {T : Type} {rel : T → T → Prop} [IsPreorder T rel] {f : S → T} {g : A → T}
    (h : Ends step a r) (hstep : ∀ b, rel (f b) ((step b).elim f g)) : rel (f a) (g r) := by
  obtain ⟨as, has⟩ := h
  exact (has.rel (fun b _ ↦ hstep b) a List.mem_cons_self).2

end Ends

/-- A recursive function comes to the result of its rounds, if every round lowers a measure. -/
theorem ends_of_measure {f : S → A} (hf : ∀ a, f a = (step a).elim f id) (measure : S → Nat)
    (hmeasure : ∀ a b, step a = .inl b → measure b < measure a) (a : S) : Ends step a (f a) := by
  induction hm : measure a using Nat.strong_induction_on generalizing a with
  | _ m ih =>
    rw [hf a]
    cases ha : step a with
    | inl b => exact .next ha (ih _ (hm ▸ hmeasure a b ha) b rfl)
    | inr r => exact .done ha

end ExactPenalty
