import ExactPenalty.Proofs.Comparison

/-!
# The first least element of a list

A search remembers its lowest trial, and a run its best iterates.  Each goes through a list once, passes
over what does not count and replaces what it has by what is less; on a tie the earlier one stays.
`isFirstLeast_of_foldl` says what is left at the end: the first of the least elements that count, if the
comparison orders those.  That is a hypothesis (`OrdersOn`), since numbers are not all ordered.
-/

set_option autoImplicit false

namespace ExactPenalty

variable {α : Type} {lt : α → α → Prop} {p : α → Bool} {a : α} {l : List α}

/-- The relation orders the elements of the set strictly, up to ties. -/
structure OrdersOn (lt : α → α → Prop) (S : Set α) : Prop where
  asymm : ∀ a ∈ S, ∀ b ∈ S, lt a b → ¬ lt b a
  lt_or_lt : ∀ a ∈ S, ∀ b ∈ S, ∀ c ∈ S, lt a b → lt a c ∨ lt c b

/-- Values that are numbers order what they belong to. -/
theorem Scalar.IsOrdered.ordersOn {R : Type} [Scalar R] (h : Scalar.IsOrdered R) (f : α → R) :
    OrdersOn (fun a b ↦ f a < f b) {a | Scalar.isNaN (f a) = false} where
  asymm _ _ _ _ := h.asymm
  lt_or_lt _ _ _ _ _ hc := h.lt_or_lt hc

section Lexicographic

open Scalar

variable {R : Type} [Scalar R] (f g : α → R)

/-- The first values decide, and where they are the same, the second ones. -/
def LexLess (a b : α) : Prop := f a < f b ∨ Same (f a) (f b) ∧ g a < g b

variable {f g}

/-- Pairs of numbers are ordered lexicographically. -/
theorem Scalar.IsOrdered.ordersOn_lexLess (h : IsOrdered R) :
    OrdersOn (LexLess f g) {a | isNaN (f a) = false ∧ isNaN (g a) = false} where
  asymm a ha b hb := by
    rintro (hlt | ⟨hsame, hlt⟩) (hlt' | ⟨hsame', hlt'⟩)
    · exact h.asymm hlt hlt'
    · exact (h.lt_iff.1 hlt).2.2 hsame'.1
    · exact (h.lt_iff.1 hlt').2.2 hsame.1
    · exact h.asymm hlt hlt'
  lt_or_lt a ha b hb c hc := by
    rintro (hlt | ⟨hsame, hlt⟩)
    · exact (h.lt_or_lt hc.1 hlt).imp .inl .inl
    -- The first values of the two are the same: it depends on where that of the third lies.
    · rcases h.lt_or_same_or_gt ha.1 hc.1 with hless | hsame' | hgreater
      · exact .inl (.inl hless)
      · have hsame'' : Same (f c) (f b) :=
          ⟨h.le_trans hsame'.2 hsame.1, h.le_trans hsame.2 hsame'.1⟩
        exact (h.lt_or_lt hc.2 hlt).imp (fun hl ↦ .inr ⟨hsame', hl⟩) fun hl ↦ .inr ⟨hsame'', hl⟩
      · exact .inr (.inl (h.lt_of_lt_of_le hgreater hsame.1))

/-- What is not less is at least as great. -/
theorem lexLe_of_not_lexLess (h : IsOrdered R) {a b : α} (hf : isNaN (f a) = false ∧ isNaN (f b) = false)
    (hg : isNaN (g a) = false ∧ isNaN (g b) = false) (hnot : ¬ LexLess f g b a) :
    f a < f b ∨ Same (f a) (f b) ∧ g a ≤ g b := by
  obtain ⟨hless, hsame⟩ := not_or.1 hnot
  rcases h.lt_or_same_or_gt hf.1 hf.2 with hlt | hsame' | hgt
  · exact .inl hlt
  · refine .inr ⟨hsame', (h.not_lt_iff hg.2 hg.1).1 fun hlt ↦ hsame ⟨hsame'.symm, hlt⟩⟩
  · exact absurd hgt hless

end Lexicographic

/-- Keeps what is less, among the elements that count. -/
def keepLess (lt : α → α → Prop) [DecidableRel lt] (p : α → Bool) (best : Option α) (a : α) : Option α :=
  if p a then
    match best with
    | none => some a
    | some b => if lt a b then some a else some b
  else best

/-- The element is the first of the least ones among those that count. -/
def IsFirstLeast (lt : α → α → Prop) (p : α → Bool) (a : α) (l : List α) : Prop :=
  p a = true ∧ ∃ before after, l = before ++ a :: after ∧
    (∀ b ∈ before, p b = true → lt a b) ∧ ∀ b ∈ after, p b = true → ¬ lt b a

namespace IsFirstLeast

theorem mem (h : IsFirstLeast lt p a l) : a ∈ l := by
  obtain ⟨-, before, after, rfl, -⟩ := h
  exact List.mem_append_right _ List.mem_cons_self

theorem of_forall_lt (ha : p a = true) (hlt : ∀ b ∈ l, p b = true → lt a b) :
    IsFirstLeast lt p a (l ++ [a]) :=
  ⟨ha, l, [], rfl, hlt, List.forall_mem_nil _⟩

theorem append {b : α} (h : IsFirstLeast lt p a l) (hb : p b = true → ¬ lt b a) :
    IsFirstLeast lt p a (l ++ [b]) := by
  obtain ⟨ha, before, after, rfl, hbefore, hafter⟩ := h
  refine ⟨ha, before, after ++ [b], by rw [List.append_assoc, List.cons_append], hbefore, ?_⟩
  exact List.forall_mem_append.2 ⟨hafter, List.forall_mem_singleton.2 hb⟩

/-- What is less than the first least element is less than all that count. -/
theorem lt_of_lt {S : Set α} (horder : OrdersOn lt S) (hl : ∀ b ∈ l, p b = true → b ∈ S) {c : α}
    (h : IsFirstLeast lt p a l) (hc : c ∈ S) (hlt : lt c a) : ∀ b ∈ l, p b = true → lt c b := by
  intro b hb hcount
  have ha : a ∈ S := hl a h.mem h.1
  have hbetween : lt c b ∨ lt b a := horder.lt_or_lt c hc a ha b (hl b hb hcount) hlt
  obtain ⟨-, before, after, rfl, hbefore, hafter⟩ := h
  rcases List.mem_append.1 hb with hb' | hb'
  · have hnot := horder.asymm a ha b (hl b hb hcount) (hbefore b hb' hcount)
    exact hbetween.resolve_right hnot
  · rcases List.mem_cons.1 hb' with rfl | hb'
    · exact hlt
    · exact hbetween.resolve_right (hafter b hb' hcount)

/-- Where the first least element stands: no element that counts is less, and those before are greater. -/
theorem exists_getElem? {S : Set α} (horder : OrdersOn lt S) (hl : ∀ b ∈ l, p b = true → b ∈ S)
    (h : IsFirstLeast lt p a l) :
    ∃ k, l[k]? = some a ∧ ∀ (j : ℕ) (b : α), l[j]? = some b → p b = true →
      ¬ lt b a ∧ (j < k → lt a b) := by
  have ha : a ∈ S := hl a h.mem h.1
  obtain ⟨-, before, after, rfl, hbefore, hafter⟩ := h
  refine ⟨before.length, by simp, fun j b hj hcount ↦ ?_⟩
  rcases lt_trichotomy j before.length with hlt | rfl | hgt
  · rw [List.getElem?_append_left hlt] at hj
    have hb : b ∈ before := List.mem_of_getElem? hj
    have hless : lt a b := hbefore b hb hcount
    have hmem : b ∈ S := hl b (List.mem_append_left _ hb) hcount
    exact ⟨horder.asymm a ha b hmem hless, fun _ ↦ hless⟩
  · rw [List.getElem?_append_right le_rfl, Nat.sub_self, List.getElem?_cons_zero] at hj
    cases hj
    exact ⟨fun hless ↦ horder.asymm a ha a ha hless hless, fun hlt ↦ absurd hlt (lt_irrefl _)⟩
  · rw [List.getElem?_append_right hgt.le, List.getElem?_cons, if_neg (by omega)] at hj
    exact ⟨hafter b (List.mem_of_getElem? hj) hcount, fun hlt ↦ absurd hlt hgt.asymm⟩

/-- Among the values of a function, all of which count, the first least one stands at the first place where
it is taken. -/
theorem exists_index {S : Set α} (horder : OrdersOn lt S) {f : ℕ → α} {N : ℕ} (hf : ∀ i < N, f i ∈ S)
    (h : IsFirstLeast lt (fun _ ↦ true) a ((List.range N).map f)) :
    ∃ j < N, f j = a ∧ ∀ i < N, ¬ lt (f i) (f j) ∧ (i < j → lt (f j) (f i)) := by
  have hmem : ∀ b ∈ (List.range N).map f, b ∈ S := by
    rintro _ hb
    obtain ⟨i, hi, rfl⟩ := List.mem_map.1 hb
    exact hf i (List.mem_range.1 hi)
  have hget (i : ℕ) (hi : i < N) : ((List.range N).map f)[i]? = some (f i) := by
    rw [List.getElem?_map, List.getElem?_range hi]
    rfl
  obtain ⟨j, hj, hfirst⟩ := h.exists_getElem? horder fun b hb _ ↦ hmem b hb
  have hlt : j < N := by
    have hlength := (List.getElem?_eq_some_iff.1 hj).1
    rwa [List.length_map, List.length_range] at hlength
  have heq : f j = a := Option.some.inj ((hget j hlt).symm.trans hj)
  exact ⟨j, hlt, heq, fun i hi ↦ heq ▸ hfirst i (f i) (hget i hi) rfl⟩

end IsFirstLeast

variable [DecidableRel lt]

theorem keepLess_eq_none_iff {best : Option α} : keepLess lt p best a = none ↔ best = none ∧ p a = false := by
  rw [keepLess.eq_def]
  cases hcount : p a with
  | false => simp
  | true =>
    cases best with
    | none => simp
    | some b =>
      dsimp only
      split_ifs <;> simp

/-- Nothing is kept only if nothing counts. -/
theorem foldl_keepLess_eq_none_iff : l.foldl (keepLess lt p) none = none ↔ ∀ a ∈ l, p a = false := by
  induction l using List.reverseRecOn with
  | nil => simp
  | append_singleton l a ih =>
    rw [List.foldl_concat, keepLess_eq_none_iff, ih, List.forall_mem_append, List.forall_mem_singleton]

/-- **What is kept is the first of the least elements that count.** -/
theorem isFirstLeast_of_foldl {S : Set α} (horder : OrdersOn lt S) (hl : ∀ b ∈ l, p b = true → b ∈ S)
    (h : l.foldl (keepLess lt p) none = some a) : IsFirstLeast lt p a l := by
  induction l using List.reverseRecOn generalizing a with
  | nil => cases h
  | append_singleton l c ih =>
    obtain ⟨hl, hc⟩ := List.forall_mem_append.1 hl
    rw [List.foldl_concat, keepLess.eq_def] at h
    cases hcount : p c with
    | false =>
      rw [hcount, if_neg Bool.false_ne_true] at h
      exact (ih hl h).append fun hc ↦ absurd (hcount.symm.trans hc) Bool.false_ne_true
    | true =>
      rw [hcount, if_pos rfl] at h
      cases hbest : l.foldl (keepLess lt p) none with
      | none =>
        rw [hbest] at h
        cases h
        have hnone := foldl_keepLess_eq_none_iff.1 hbest
        exact .of_forall_lt hcount fun b hb hb' ↦
          absurd ((hnone b hb).symm.trans hb') Bool.false_ne_true
      | some b =>
        rw [hbest] at h
        dsimp only at h
        split_ifs at h with hlt
        · cases h
          have hmem : c ∈ S := hc c (List.mem_singleton_self c) hcount
          exact .of_forall_lt hcount ((ih hl hbest).lt_of_lt horder hl hmem hlt)
        · cases h
          exact (ih hl hbest).append fun _ ↦ hlt

end ExactPenalty
