import ExactPenalty.Proofs.Real

/-!
# Comparison

The library assumes nothing of its scalars, but what it does with a comparison depends on two facts that
hold in floating point as they do for the real numbers: the scalars that are numbers, the infinities
included, stand in a line, and a comparison with anything else is false.  `Scalar.IsOrdered` says so.
The two zeros are the same to every comparison, so `≤` is a preorder and no partial order.

* `Scalar.isOrdered_real` — the real numbers, all of which are numbers.
* `Scalar.isOrdered_float` — double precision.  The rank of a floating point number is where it lies among
  the others, and two of them compare as their ranks do (`compare_eq_floatRank`).

Addition and multiplication do not appear: nothing here says which operations give a number.
-/

set_option autoImplicit false

namespace ExactPenalty

namespace Scalar

/-- The numbers among the scalars are ordered, and a comparison with a scalar that is not a number is
false. -/
structure IsOrdered (R : Type) [Scalar R] : Prop where
  isNaN_zero : isNaN (0 : R) = false
  isNaN_of_isFinite : ∀ {a : R}, isFinite a = true → isNaN a = false
  isNaN_of_le : ∀ {a b : R}, a ≤ b → isNaN a = false ∧ isNaN b = false
  le_total : ∀ {a b : R}, isNaN a = false → isNaN b = false → a ≤ b ∨ b ≤ a
  le_trans : ∀ {a b c : R}, a ≤ b → b ≤ c → a ≤ c
  lt_iff : ∀ {a b : R}, a < b ↔ isNaN a = false ∧ isNaN b = false ∧ ¬ b ≤ a

namespace IsOrdered

variable {R : Type} [Scalar R] {a b c : R}

theorem not_lt_iff (h : IsOrdered R) (ha : isNaN a = false) (hb : isNaN b = false) :
    ¬ a < b ↔ b ≤ a := by
  rw [h.lt_iff]
  exact ⟨fun hnot ↦ not_not.1 fun hle ↦ hnot ⟨ha, hb, hle⟩, fun hle hlt ↦ hlt.2.2 hle⟩

/-- A test that fails decides the opposite comparison exactly where both sides are numbers. -/
theorem le_iff_isNaN (h : IsOrdered R) (hnot : ¬ a < b) :
    b ≤ a ↔ isNaN a = false ∧ isNaN b = false :=
  ⟨fun hle ↦ (h.isNaN_of_le hle).symm, fun hnumbers ↦ (h.not_lt_iff hnumbers.1 hnumbers.2).1 hnot⟩

theorem lt_iff_isNaN (h : IsOrdered R) (hnot : ¬ a ≤ b) :
    b < a ↔ isNaN a = false ∧ isNaN b = false :=
  ⟨fun hlt ↦ ⟨(h.lt_iff.1 hlt).2.1, (h.lt_iff.1 hlt).1⟩,
    fun hnumbers ↦ h.lt_iff.2 ⟨hnumbers.2, hnumbers.1, hnot⟩⟩

theorem le_of_lt (h : IsOrdered R) (hlt : a < b) : a ≤ b := by
  obtain ⟨ha, hb, hnot⟩ := h.lt_iff.1 hlt
  exact (h.le_total ha hb).resolve_right hnot

theorem lt_of_lt_of_le (h : IsOrdered R) (hab : a < b) (hbc : b ≤ c) : a < c := by
  obtain ⟨ha, -, hnot⟩ := h.lt_iff.1 hab
  exact h.lt_iff.2 ⟨ha, (h.isNaN_of_le hbc).2, fun hca ↦ hnot (h.le_trans hbc hca)⟩

theorem lt_or_same_or_gt (h : IsOrdered R) (ha : isNaN a = false) (hb : isNaN b = false) :
    a < b ∨ Same a b ∨ b < a := by
  rw [h.lt_iff, h.lt_iff, Same]
  tauto

theorem asymm (h : IsOrdered R) (hlt : a < b) : ¬ b < a :=
  fun hlt' ↦ (h.lt_iff.1 hlt').2.2 (h.le_of_lt hlt)

/-- A number lies above the lower or below the upper one of two others. -/
theorem lt_or_lt (h : IsOrdered R) (hc : isNaN c = false) (hlt : a < b) : a < c ∨ c < b := by
  obtain ⟨ha, hb, hnot⟩ := h.lt_iff.1 hlt
  by_contra hneither
  rw [not_or, h.not_lt_iff ha hc, h.not_lt_iff hc hb] at hneither
  exact hnot (h.le_trans hneither.2 hneither.1)

theorem isNaN_larger (h : IsOrdered R) (ha : isNaN a = false) : isNaN (larger a b) = false := by
  by_cases hlt : a < b
  · rw [larger, if_pos (.inl hlt)]
    exact (h.lt_iff.1 hlt).2.1
  · rw [larger, if_neg (not_or.2 ⟨hlt, Bool.eq_false_iff.1 ha⟩)]
    exact ha

end IsOrdered

end Scalar

theorem Scalar.isOrdered_real : Scalar.IsOrdered ℝ where
  isNaN_zero := rfl
  isNaN_of_isFinite _ := rfl
  isNaN_of_le _ := ⟨rfl, rfl⟩
  le_total _ _ := le_total _ _
  le_trans := le_trans
  lt_iff := by simp

/-! ## Double precision -/

section Float

open Float.Model

/-- Where a floating point number lies among the others: by its sign, then by its exponent and its
mantissa, both reversed for the negative ones. -/
def floatRank : UnpackedFloat → ℤ ×ₗ ℤ ×ₗ ℤ
  | .infinity .negative => toLex (-2, toLex (0, 0))
  | .finite .negative m e _ => toLex (-1, toLex (-e, -m))
  | .zero _ => toLex (0, toLex (0, 0))
  | .notANumber => toLex (0, toLex (0, 0))
  | .finite .positive m e _ => toLex (1, toLex (e, m))
  | .infinity .positive => toLex (2, toLex (0, 0))

theorem compare_natCast (m m' : ℕ) : compare (m : ℤ) m' = compare m m' := by
  rw [← cmp_eq_compare, Nat.strictMono_cast.cmp_map_eq, cmp_eq_compare]

theorem compare_neg (x y : ℤ) : compare (-x) (-y) = (compare x y).swap := by
  have hanti : StrictAnti fun x : ℤ ↦ -x := strictMono_id.neg
  rw [← cmp_eq_compare, hanti.cmp_map_eq, ← cmp_eq_compare, cmp_swap]

theorem compare_magnitudes (z e e' : ℤ) (m m' : ℕ) :
    compare (toLex (z, toLex (e, (m : ℤ)))) (toLex (z, toLex (e', (m' : ℤ))))
      = (compare e e').then (compare m m') := by
  simp [Prod.Lex.compare_def, compareLex, compareOn, compare_natCast]

theorem compare_neg_magnitudes (z e e' : ℤ) (m m' : ℕ) :
    compare (toLex (z, toLex (-e, -(m : ℤ)))) (toLex (z, toLex (-e', -(m' : ℤ))))
      = ((compare e e').then (compare m m')).swap := by
  simp [Prod.Lex.compare_def, compareLex, compareOn, compare_neg, compare_natCast, Ordering.swap_then]

/-- **Two floating point numbers compare as their ranks do.** -/
theorem compare_eq_floatRank {a b : UnpackedFloat} (ha : a.isNaN = false) (hb : b.isNaN = false) :
    a.compare b = some (compare (floatRank a) (floatRank b)) := by
  cases a with
  | notANumber => cases ha
  | infinity s =>
    cases b with
    | notANumber => cases hb
    | infinity s' => cases s <;> cases s' <;> rfl
    | zero s' => cases s <;> rfl
    | finite s' m' e' hm' => cases s <;> cases s' <;> rfl
  | zero s =>
    cases b with
    | notANumber => cases hb
    | infinity s' => cases s' <;> rfl
    | zero s' => rfl
    | finite s' m' e' hm' => cases s' <;> rfl
  | finite s m e hm =>
    cases b with
    | notANumber => cases hb
    | infinity s' => cases s <;> cases s' <;> rfl
    | zero s' => cases s <;> rfl
    | finite s' m' e' hm' =>
      -- Numbers of the same sign differ in their magnitudes only.
      cases s <;> cases s'
      · exact congrArg some (compare_neg_magnitudes _ e e' m m').symm
      · rfl
      · rfl
      · exact congrArg some (compare_magnitudes _ e e' m m').symm

theorem isNaN_of_compare {a b : UnpackedFloat} {o : Ordering} (h : a.compare b = some o) :
    a.isNaN = false ∧ b.isNaN = false := by
  cases a <;> cases b <;> first | exact ⟨rfl, rfl⟩ | cases h

namespace Scalar

theorem isNaN_float (a : Float) : isNaN a = a.toModel.unpack.isNaN := rfl

theorem lt_float_iff_compare {a b : Float} :
    a < b ↔ a.toModel.unpack.compare b.toModel.unpack = some .lt := by
  show decide (a.toModel.unpack.lt b.toModel.unpack = true) = true ↔ _
  rw [decide_eq_true_eq, UnpackedFloat.lt, beq_iff_eq]

theorem le_float_iff_compare {a b : Float} :
    a ≤ b ↔ (a.toModel.unpack.compare b.toModel.unpack).any Ordering.isLE := by
  show decide (a.toModel.unpack.le b.toModel.unpack = true) = true ↔ _
  rw [decide_eq_true_eq, UnpackedFloat.le]

theorem isNaN_of_isFinite_float {a : Float} (h : isFinite a = true) : isNaN a = false := by
  change a.toModel.unpack.isFinite = true at h
  rw [isNaN_float]
  cases hunpack : a.toModel.unpack with
  | notANumber =>
    rw [hunpack] at h
    cases h
  | _ => rfl

theorem lt_float_iff_floatRank {a b : Float} (ha : isNaN a = false) (hb : isNaN b = false) :
    a < b ↔ floatRank a.toModel.unpack < floatRank b.toModel.unpack := by
  rw [lt_float_iff_compare, compare_eq_floatRank ha hb, Option.some_inj, compare_lt_iff_lt]

theorem le_float_iff_floatRank {a b : Float} (ha : isNaN a = false) (hb : isNaN b = false) :
    a ≤ b ↔ floatRank a.toModel.unpack ≤ floatRank b.toModel.unpack := by
  rw [le_float_iff_compare, compare_eq_floatRank ha hb, Option.any_some, Ordering.isLE_iff_ne_gt]
  exact compare_le_iff_le

theorem isNaN_of_lt_float {a b : Float} (h : a < b) : isNaN a = false ∧ isNaN b = false :=
  isNaN_of_compare (lt_float_iff_compare.1 h)

theorem isNaN_of_le_float {a b : Float} (h : a ≤ b) : isNaN a = false ∧ isNaN b = false := by
  rw [le_float_iff_compare, Option.any_eq_true] at h
  obtain ⟨o, ho, -⟩ := h
  exact isNaN_of_compare ho

end Scalar

theorem Scalar.isOrdered_float : Scalar.IsOrdered Float where
  isNaN_zero := by decide
  isNaN_of_isFinite := isNaN_of_isFinite_float
  isNaN_of_le := isNaN_of_le_float
  le_total {a b} ha hb := by
    rw [le_float_iff_floatRank ha hb, le_float_iff_floatRank hb ha]
    exact le_total _ _
  le_trans {a b c} hab hbc := by
    obtain ⟨ha, hb⟩ := isNaN_of_le_float hab
    obtain ⟨-, hc⟩ := isNaN_of_le_float hbc
    rw [le_float_iff_floatRank ha hb] at hab
    rw [le_float_iff_floatRank hb hc] at hbc
    exact (le_float_iff_floatRank ha hc).2 (hab.trans hbc)
  lt_iff {a b} := by
    constructor
    · intro hlt
      obtain ⟨ha, hb⟩ := isNaN_of_lt_float hlt
      rw [lt_float_iff_floatRank ha hb] at hlt
      exact ⟨ha, hb, fun hle ↦ hlt.not_ge ((le_float_iff_floatRank hb ha).1 hle)⟩
    · rintro ⟨ha, hb, hnot⟩
      rw [le_float_iff_floatRank hb ha] at hnot
      exact (lt_float_iff_floatRank ha hb).2 (lt_of_not_ge hnot)

end Float

end ExactPenalty
