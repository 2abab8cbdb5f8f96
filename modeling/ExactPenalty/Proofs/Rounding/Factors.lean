import ExactPenalty.Options
import ExactPenalty.Proofs.Rounding

/-!
# Factors between zero and one

A number that is not negative stays so when it is multiplied by a factor between zero and one, and it does
not grow.  `Scalar.Shrinks` says so, and it holds of rounded products too (`Scalar.shrinks_float`), although
such a product may well be the number itself.

The exact product is below the number, and rounding does not lead across what can be stored.  Of the digits
of the product those are dropped that are too many, and before it is rounded the rest is less than what the
number would be with the same exponent (`shifted_product`).  Rounding adds one at most, so it stops there.
If a carry runs through all the digits, the number has a larger exponent.

What a product is stored as is read back unchanged (`unpack_pack_finite`), so the two are compared by their
ranks.
-/

set_option autoImplicit false

namespace ExactPenalty

/-- What rounding leaves of the laws for factors between zero and one. -/
structure Scalar.Shrinks (R : Type) [Scalar R] : Prop where
  nonneg_of_pos : ∀ {a : R}, 0 < a → 0 ≤ a
  le_refl : ∀ {a : R}, 0 ≤ a → a ≤ a
  le_trans : ∀ {a b c : R}, a ≤ b → b ≤ c → a ≤ c
  mul_nonneg : ∀ {a c : R}, 0 ≤ a → InOpenUnit c → 0 ≤ a * c
  mul_le : ∀ {a c : R}, 0 ≤ a → InOpenUnit c → a * c ≤ a

theorem Scalar.shrinks_real : Scalar.Shrinks ℝ where
  nonneg_of_pos := le_of_lt
  le_refl _ := le_rfl
  le_trans := le_trans
  mul_nonneg ha hc := mul_nonneg ha hc.1.le
  mul_le ha hc := mul_le_of_le_one_right ha hc.2.le

/-! ## Double precision -/

section Float

open Float.Model UnpackedFloat

/-! ### Storing and reading back -/

theorem unpack_pack_zero (s : Sign) : (Float.Model.pack (.zero s)).unpack = .zero s := by
  cases s <;> rfl

theorem unpack_pack_infinity :
    (Float.Model.pack (.infinity .positive)).unpack = .infinity .positive := by
  rfl

/-- **A number is read back as it was stored.** -/
theorem unpack_pack_finite (s : Sign) {m : ℕ} {e : ℤ} (hm : 0 < m) (h : IsStored m e) :
    (Float.Model.pack (.finite s m e hm)).unpack = .finite s m e hm := by
  show UnpackedFloat.unpack .binary64 (UnpackedFloat.pack .binary64 (.finite s m e hm)) = _
  obtain ⟨hlt, hle, hmax, hfull⟩ := h
  have hbias : ((Format.binary64.exponentBias : ℕ) : ℤ) = 1023 := rfl
  have hbiased : (e + (Format.binary64.exponentBias : ℕ) + (52 : ℕ)).toNat + 1 < 2 ^ 11 := by omega
  have hdigits_iff : 2 ^ 52 ≤ m → m.log2 + 1 = Format.binary64.mantissaBits :=
    fun hlow ↦ congrArg Nat.succ ((Nat.log2_eq_iff hm.ne').2 ⟨hlow, hlt⟩)
  rw [UnpackedFloat.pack]
  dsimp only
  rw [if_neg (not_le.2 hbiased), UnpackedFloat.unpack]
  split
  · next hdigits =>
    have hlow : 2 ^ 52 ≤ m := by
      have hlog : m.log2 = 52 := Nat.succ_injective hdigits
      rw [← hlog]
      exact Nat.log2_self_le hm.ne'
    have hexponent : (BitVec.ofNat 11 (e + (Format.binary64.exponentBias : ℕ) + (52 : ℕ)).toNat).toNat
        = (e + 1075).toNat := by
      rw [BitVec.toNat_ofNat, Nat.mod_eq_of_lt (by omega)]
      omega
    have hmantissa : (BitVec.ofNat 52 m).toNat = m - 2 ^ 52 := by
      rw [BitVec.toNat_ofNat]
      omega
    have hother {b : BitVec 11} (hb : (e + 1075).toNat ≠ b.toNat) :
        BitVec.ofNat 11 (e + (Format.binary64.exponentBias : ℕ) + (52 : ℕ)).toNat ≠ b :=
      fun heq ↦ hb (hexponent.symm.trans (congrArg BitVec.toNat heq))
    have hlast : (e + 1075).toNat ≠ (-1#11).toNat := by
      change _ ≠ 2047
      omega
    have hfirst : (e + 1075).toNat ≠ (0#11).toNat := by
      change _ ≠ 0
      omega
    simp only [unpackMantissa_packComponents, unpackExponent_packComponents, unpackSign_packComponents,
      toNat_one_append, Sign.ofBitVec_toBitVec]
    rw [if_neg (hother hlast), if_neg (hother hfirst), UnpackedFloat.finite.injEq, hmantissa, hexponent]
    exact ⟨rfl, by omega, by omega⟩
  · next hdigits =>
    have hlow : m < 2 ^ 52 := not_le.1 fun hlow ↦ hdigits (hdigits_iff hlow)
    have hleast : e = -1074 := by
      by_contra hne
      exact hdigits (hdigits_iff (hfull hne))
    have hmantissa : (BitVec.ofNat 52 m).toNat = m := by
      rw [BitVec.toNat_ofNat, Nat.mod_eq_of_lt hlow]
    have hzero : BitVec.ofNat 52 m ≠ 0#52 := by
      intro heq
      have hvalue := congrArg BitVec.toNat heq
      rw [hmantissa] at hvalue
      exact hm.ne' hvalue
    simp only [unpackMantissa_packComponents, unpackExponent_packComponents, unpackSign_packComponents,
      Sign.ofBitVec_toBitVec]
    rw [if_neg (by decide), if_pos trivial, dif_neg hzero, UnpackedFloat.finite.injEq, hmantissa]
    exact ⟨rfl, rfl, hleast.symm⟩

/-! ### Rounding a product -/

/-- Rounded digits are kept, unless a carry runs through all of them. -/
theorem shift_rounded {r : ℕ} {e : ℤ} (hr : r ≤ 2 ^ 53) (he : -1074 ≤ e) :
    (r < 2 ^ 53 ∧ (shiftToTargetExponent .binary64 r e .exact).1.mantissa = r ∧
      (shiftToTargetExponent .binary64 r e .exact).2 = e) ∨
    (r = 2 ^ 53 ∧ (shiftToTargetExponent .binary64 r e .exact).1.mantissa = 2 ^ 52 ∧
      (shiftToTargetExponent .binary64 r e .exact).2 = e + 1) := by
  have hexponent := shiftToTargetExponent_snd r e .exact
  have hmantissa := shiftToTargetExponent_fst r e
  rcases hr.lt_or_eq with hlt | rfl
  · have hdigits : r.log2 ≤ 52 := by
      rcases Nat.eq_zero_or_pos r with rfl | hpos
      · decide
      · exact Nat.lt_succ_iff.1 ((Nat.log2_lt hpos.ne').2 hlt)
    have hsame : (shiftToTargetExponent .binary64 r e .exact).2 = e := by omega
    rw [hsame, sub_self, Int.toNat_zero, pow_zero, Nat.div_one] at hmantissa
    exact .inl ⟨hlt, hmantissa, hsame⟩
  · have hdigits : (2 ^ 53).log2 = 53 := Nat.log2_two_pow
    have hnext : (shiftToTargetExponent .binary64 (2 ^ 53) e .exact).2 = e + 1 := by omega
    rw [hnext, add_sub_cancel_left] at hmantissa
    exact .inr ⟨rfl, hmantissa, hnext⟩

/-- Where digits are dropped, 53 of them are left, unless the exponent is the least one. -/
theorem le_shifted_mantissa {m : ℕ} {e : ℤ} (hm : m ≠ 0) (hmany : 2 ^ 52 ≤ m ∨ e < -1074)
    (hleast : (shiftToTargetExponent .binary64 m e .exact).2 ≠ -1074) :
    2 ^ 52 ≤ (shiftToTargetExponent .binary64 m e .exact).1.mantissa := by
  have hexponent := shiftToTargetExponent_snd m e .exact
  have hdropped : 52 + ((shiftToTargetExponent .binary64 m e .exact).2 - e).toNat ≤ m.log2 := by
    rcases hmany with hmany | hsmall
    · have hdigits : 52 ≤ m.log2 := (Nat.le_log2 hm).2 hmany
      omega
    · omega
  rw [shiftToTargetExponent_fst, Nat.le_div_iff_mul_le (Nat.two_pow_pos _), ← pow_add]
  exact (Nat.le_log2 hm).1 hdropped

section Product

variable {m c : ℕ} {e f : ℤ}

/-- **Before it is rounded, a product with a number below one is less than the other number.** -/
theorem shifted_product (hm : 0 < m) (h : IsStored m e) (hc : 0 < c) (hbelow : c < 2 ^ (-f).toNat) :
    ∃ d : ℕ, e = (shiftToTargetExponent .binary64 (m * c) (e + f) .exact).2 + d ∧
      (shiftToTargetExponent .binary64 (m * c) (e + f) .exact).1.mantissa < m * 2 ^ d := by
  have hexponent := shiftToTargetExponent_snd (m * c) (e + f) .exact
  have hle := h.le_exponent
  have hproduct : m * c < m * 2 ^ (-f).toNat := Nat.mul_lt_mul_of_pos_left hbelow hm
  have hf : f < 0 := by
    by_contra hge
    rw [Int.toNat_eq_zero.2 (by omega)] at hbelow
    omega
  have hdigits : (m * c).log2 ≤ 52 + (-f).toNat := by
    refine Nat.lt_succ_iff.1 ((Nat.log2_lt (Nat.mul_pos hm hc).ne').2 (hproduct.trans_le ?_))
    calc m * 2 ^ (-f).toNat ≤ 2 ^ 53 * 2 ^ (-f).toNat := Nat.mul_le_mul_right _ h.mantissa_lt.le
      _ = 2 ^ (52 + (-f).toNat + 1) := by rw [← pow_add, Nat.add_right_comm]
  obtain ⟨k, d, hk, hd, hkd⟩ : ∃ k d : ℕ,
      (shiftToTargetExponent .binary64 (m * c) (e + f) .exact).2 - (e + f) = k ∧
      e = (shiftToTargetExponent .binary64 (m * c) (e + f) .exact).2 + d ∧ (-f).toNat = k + d :=
    ⟨_, (e - (shiftToTargetExponent .binary64 (m * c) (e + f) .exact).2).toNat,
      (Int.toNat_of_nonneg (by omega)).symm, by omega, by omega⟩
  refine ⟨d, hd, ?_⟩
  rw [shiftToTargetExponent_fst, hk, Int.toNat_natCast]
  refine Nat.div_lt_of_lt_mul (hproduct.trans_eq ?_)
  rw [hkd, pow_add, Nat.mul_left_comm]

/-- A magnitude is at most another one. -/
def IsBelow (m' : ℕ) (e' : ℤ) (m : ℕ) (e : ℤ) : Prop := e' < e ∨ e' = e ∧ m' ≤ m

/-- **A product with a number below one is rounded to zero, or to something that can be stored and is not
above the other number.** -/
theorem round_product (hm : 0 < m) (h : IsStored m e) (hc : 0 < c) (hbelow : c < 2 ^ (-f).toNat)
    (s : Sign) :
    roundWithAccuracy .binary64 s (m * c) (e + f) .exact = .zero s ∨
      ∃ m' e' hm', roundWithAccuracy .binary64 s (m * c) (e + f) .exact = .finite s m' e' hm' ∧
        IsStored m' e' ∧ IsBelow m' e' m e := by
  obtain ⟨d, hd, hless⟩ := shifted_product hm h hc hbelow
  have hmany : 2 ^ 52 ≤ m * c ∨ e + f < -1074 := by
    rcases eq_or_ne e (-1074) with heq | hne
    · refine .inr ?_
      have hf : (-f).toNat ≠ 0 := fun hzero ↦ by
        rw [hzero] at hbelow
        omega
      omega
    · exact .inl ((h.le_mantissa hne).trans (Nat.le_mul_of_pos_right m hc))
  have hall := le_shifted_mantissa (Nat.mul_pos hm hc).ne' hmany
  have hexponent := shiftToTargetExponent_snd (m * c) (e + f) .exact
  have hmantissa := shiftToTargetExponent_mantissa_lt (m * c) (e + f)
  rw [roundWithAccuracy]
  generalize shiftToTargetExponent .binary64 (m * c) (e + f) .exact = shifted
    at hd hless hall hexponent hmantissa ⊢
  obtain ⟨em, e₁⟩ := shifted
  dsimp only at hd hless hall hexponent hmantissa ⊢
  have hlow := le_roundedMantissa em
  have hhigh := roundedMantissa_le em
  have hleast : -1074 ≤ e₁ := by omega
  have hmax := h.exponent_le
  have hrounded := shift_rounded (r := em.roundedMantissa) (hhigh.trans hmantissa) hleast
  generalize shiftToTargetExponent .binary64 em.roundedMantissa e₁ .exact = shifted at hrounded ⊢
  obtain ⟨final, e₂⟩ := shifted
  dsimp only at hrounded ⊢
  have hpoint : em.roundedMantissa ≤ m * 2 ^ d := hhigh.trans hless
  split_ifs with hzero
  · exact .inl rfl
  refine .inr ⟨_, _, Nat.pos_of_ne_zero hzero, rfl, ?_⟩
  rcases hrounded with ⟨hkept, hm', he'⟩ | ⟨hcarry, hm', he'⟩ <;> rw [hm', he']
  · refine ⟨⟨hkept, hleast, by omega, fun hne ↦ (hall hne).trans hlow⟩, ?_⟩
    rcases Nat.eq_zero_or_pos d with rfl | hpos
    · exact .inr ⟨by omega, by omega⟩
    · exact .inl (by omega)
  -- Only a number with a larger exponent has a carry below it.
  · rw [hcarry] at hpoint
    have hlt := h.mantissa_lt
    have hcarried : d ≠ 0 := by
      rintro rfl
      omega
    refine ⟨⟨by norm_num, by omega, by omega, fun _ ↦ le_rfl⟩, ?_⟩
    rcases eq_or_ne d 1 with rfl | hne
    · exact .inr ⟨by omega, by omega⟩
    · exact .inl (by omega)

end Product

/-! ### Ranks -/

section Ranks

variable {m m' : ℕ} {e e' : ℤ} {hm : 0 < m} {hm' : 0 < m'}

theorem floatRank_le_iff :
    floatRank (.finite .positive m' e' hm') ≤ floatRank (.finite .positive m e hm) ↔ IsBelow m' e' m e := by
  simp [floatRank, Prod.Lex.le_iff, IsBelow]

theorem floatRank_lt_iff : floatRank (.finite .positive m' e' hm') < floatRank (.finite .positive m e hm)
    ↔ e' < e ∨ e' = e ∧ m' < m := by
  simp [floatRank, Prod.Lex.lt_iff]

theorem floatRank_zero_le_finite :
    floatRank (.zero .positive) ≤ floatRank (.finite .positive m e hm) := by
  simp [floatRank, Prod.Lex.le_iff]

/-- The numbers that are not negative. -/
theorem cases_of_floatRank_nonneg {u : UnpackedFloat} (hnumber : u.isNaN = false)
    (h : floatRank (.zero .positive) ≤ floatRank u) :
    (∃ s, u = .zero s) ∨ u = .infinity .positive ∨ ∃ m e hm, u = .finite .positive m e hm := by
  cases u with
  | notANumber => cases hnumber
  | zero s => exact .inl ⟨s, rfl⟩
  | infinity s =>
    cases s with
    | positive => exact .inr (.inl rfl)
    | negative => simp [floatRank, Prod.Lex.le_iff] at h
  | finite s m e hm =>
    cases s with
    | positive => exact .inr (.inr ⟨m, e, hm, rfl⟩)
    | negative => simp [floatRank, Prod.Lex.le_iff] at h

end Ranks

namespace Scalar

/-- A factor between zero and one has more digits behind the point than its mantissa. -/
theorem exists_of_inOpenUnit {c : Float} (hc : InOpenUnit c) :
    ∃ m e hm, c.toModel.unpack = .finite .positive m e hm ∧ m < 2 ^ (-e).toNat := by
  obtain ⟨hzero, hnumber⟩ := isNaN_of_lt_float hc.1
  obtain ⟨-, hone⟩ := isNaN_of_lt_float hc.2
  have hpos := (lt_float_iff_floatRank hzero hnumber).1 hc.1
  have hlt := (lt_float_iff_floatRank hnumber hone).1 hc.2
  change floatRank (.zero .positive) < _ at hpos
  change _ < floatRank (.finite .positive (2 ^ 52) (-52) (by decide)) at hlt
  rcases cases_of_floatRank_nonneg hnumber hpos.le with ⟨s, hc⟩ | hc | ⟨m, e, hm, hc⟩
  · rw [hc] at hpos
    exact absurd hpos (lt_irrefl _)
  · rw [hc] at hlt
    simp [floatRank, Prod.Lex.lt_iff] at hlt
  · refine ⟨m, e, hm, hc, ?_⟩
    rw [hc, floatRank_lt_iff] at hlt
    rcases hlt with hlt | ⟨rfl, hlt⟩
    · exact (isStored_of_unpack hc).mantissa_lt.trans_le (Nat.pow_le_pow_right two_pos (by omega))
    · exact hlt

/-- **A rounded product with a factor between zero and one** is not negative, and not above the other
factor. -/
theorem mul_of_inOpenUnit {a c : Float} (ha : 0 ≤ a) (hc : InOpenUnit c) : 0 ≤ a * c ∧ a * c ≤ a := by
  obtain ⟨hzero, hnumber⟩ := isNaN_of_le_float ha
  rw [le_float_iff_floatRank hzero hnumber] at ha
  change floatRank (.zero .positive) ≤ _ at ha
  obtain ⟨m, e, hm, hunpack, hbelow⟩ := exists_of_inOpenUnit hc
  have hproduct : (a * c).toModel.unpack
      = (Float.Model.pack (.mul .binary64 a.toModel.unpack (.finite .positive m e hm))).unpack := by
    rw [← hunpack]
    rfl
  suffices hbounds : (a * c).toModel.unpack.isNaN = false ∧
      floatRank (.zero .positive) ≤ floatRank (a * c).toModel.unpack ∧
      floatRank (a * c).toModel.unpack ≤ floatRank a.toModel.unpack by
    obtain ⟨hproduct, hnonneg, hle⟩ := hbounds
    exact ⟨(le_float_iff_floatRank hzero hproduct).2 hnonneg,
      (le_float_iff_floatRank hproduct hnumber).2 hle⟩
  rcases cases_of_floatRank_nonneg hnumber ha with ⟨s, hu⟩ | hu | ⟨m', e', hm', hu⟩ <;>
    rw [hu] at hproduct ha ⊢
  · have hsame : (a * c).toModel.unpack = .zero (s * .positive) := hproduct.trans (unpack_pack_zero _)
    rw [hsame]
    exact ⟨rfl, le_rfl, le_rfl⟩
  · have hsame : (a * c).toModel.unpack = .infinity .positive := hproduct.trans unpack_pack_infinity
    rw [hsame]
    exact ⟨rfl, ha, le_rfl⟩
  · change _ = (Float.Model.pack (roundWithAccuracy .binary64 .positive (m' * m) (e' + e) .exact)).unpack
      at hproduct
    obtain hround | ⟨m₁, e₁, hm₁, hround, hstored, hle⟩ :=
      round_product hm' (isStored_of_unpack hu) hm hbelow .positive
    · rw [hproduct, hround, unpack_pack_zero]
      exact ⟨rfl, le_rfl, ha⟩
    · rw [hproduct, hround, unpack_pack_finite .positive hm₁ hstored]
      exact ⟨rfl, floatRank_zero_le_finite, floatRank_le_iff.2 hle⟩

theorem shrinks_float : Shrinks Float where
  nonneg_of_pos := isOrdered_float.le_of_lt
  le_refl ha := (or_self_iff.1 (isOrdered_float.le_total (isOrdered_float.isNaN_of_le ha).2
    (isOrdered_float.isNaN_of_le ha).2))
  le_trans := isOrdered_float.le_trans
  mul_nonneg ha hc := (mul_of_inOpenUnit ha hc).1
  mul_le ha hc := (mul_of_inOpenUnit ha hc).2

end Scalar

end Float

end ExactPenalty
