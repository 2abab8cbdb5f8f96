import ExactPenalty.Proofs.Comparison

/-!
# What rounding keeps

A rounded operation need not be near the exact one: it may overflow, and it may give what is no number.  Two
things are certain, in floating point as in exact arithmetic, and `Scalar.IsRounded` adds them to the laws of
comparison: a product with what is no number is none either, and a bracket that reaches from zero to a finite
number has a finite middle.

For double precision the second is about exponents.  A finite number that is stored has fewer than `2⁵³` in
its mantissa and an exponent of at most 971 (`IsStored`), and conversely every number with such an
exponent is finite when it is stored (`isFinite_pack_finite`).  Rounding drops digits of the mantissa and
raises the exponent by as many, and by one more if a carry runs through all that are left
(`exponent_roundWithAccuracy_le`); halving lowers the exponent by one, so there is room for the carry.
-/

set_option autoImplicit false

namespace ExactPenalty

/-- What is no number stays none in a product, and a finite number has a finite half. -/
structure Scalar.IsRounded (R : Type) [Scalar R] : Prop extends Scalar.IsOrdered R where
  isNaN_mul : ∀ {a b : R}, isNaN b = true → isNaN (a * b) = true
  isFinite_middle : ∀ {t : R}, isFinite t = true → isFinite (0.5 * (0 + t)) = true

theorem Scalar.isRounded_real : Scalar.IsRounded ℝ where
  toIsOrdered := Scalar.isOrdered_real
  isNaN_mul := id
  isFinite_middle _ := rfl

/-! ## Double precision -/

section Float

open Float.Model UnpackedFloat

/-! ### Numbers that are stored -/

theorem isFinite_unpack_iff {spec : Format} {b : BitVec spec.numBits} :
    (UnpackedFloat.unpack spec b).isFinite = true ↔ unpackExponent b ≠ -1#_ := by
  rw [UnpackedFloat.unpack]
  split
  · split <;> simp_all [UnpackedFloat.isFinite]
  · split
    · split <;> simp_all [UnpackedFloat.isFinite]
    · simp_all [UnpackedFloat.isFinite]

theorem isFinite_cases {u : UnpackedFloat} (h : u.isFinite = true) :
    (∃ s, u = .zero s) ∨ ∃ s m e hm, u = .finite s m e hm := by
  cases u with
  | zero s => exact .inl ⟨s, rfl⟩
  | finite s m e hm => exact .inr ⟨s, m, e, hm, rfl⟩
  | infinity s => cases h
  | notANumber => cases h

theorem isFinite_pack_zero (s : Sign) : (Float.Model.pack (.zero s)).unpack.isFinite = true := by
  cases s <;> decide

/-- A number whose exponent is small enough is finite when it is stored. -/
theorem isFinite_pack_finite {s : Sign} {m : ℕ} {e : ℤ} {hm : 0 < m} (he : e ≤ 971) :
    (Float.Model.pack (.finite s m e hm)).unpack.isFinite = true := by
  show (UnpackedFloat.unpack .binary64 (UnpackedFloat.pack .binary64 (.finite s m e hm))).isFinite = true
  have hbias : ((Format.binary64.exponentBias : ℕ) : ℤ) = 1023 := rfl
  have hbiased : (e + (Format.binary64.exponentBias : ℕ) + (52 : ℕ)).toNat + 1 < 2 ^ 11 := by omega
  rw [isFinite_unpack_iff, UnpackedFloat.pack]
  dsimp only
  rw [if_neg (not_le.2 hbiased)]
  split
  · rw [unpackExponent_packComponents]
    intro h
    have hvalue := congrArg BitVec.toNat h
    rw [BitVec.toNat_ofNat, Nat.mod_eq_of_lt (by omega)] at hvalue
    change _ = 2047 at hvalue
    omega
  · rw [unpackExponent_packComponents]
    decide

/-- A mantissa and an exponent as they are stored: there are 53 digits, unless the exponent is the least
one. -/
structure IsStored (m : ℕ) (e : ℤ) : Prop where
  mantissa_lt : m < 2 ^ 53
  le_exponent : -1074 ≤ e
  exponent_le : e ≤ 971
  le_mantissa : e ≠ -1074 → 2 ^ 52 ≤ m

/-- The leading digit, which is left out when a number is stored, in front of the others. -/
theorem toNat_one_append {n : ℕ} (v : BitVec n) : (1#1 ++ v).toNat = 2 ^ n + v.toNat := by
  have hone : (1#1).toNat = 1 := rfl
  rw [BitVec.toNat_append, ← Nat.shiftLeft_add_eq_or_of_lt v.isLt, Nat.shiftLeft_eq, hone, one_mul]

theorem isStored_of_unpack {x : Float.Model} {s : Sign} {m : ℕ} {e : ℤ} {hm : 0 < m}
    (h : x.unpack = .finite s m e hm) : IsStored m e := by
  change UnpackedFloat.unpack .binary64 x.toBits.toBitVec = _ at h
  have hbias : ((Format.binary64.exponentBias : ℕ) : ℤ) = 1023 := rfl
  have hbits : ((Format.binary64.mantissaBitsWithoutImplicit : ℕ) : ℤ) = 52 := rfl
  have hexponent : (unpackExponent x.toBits.toBitVec : BitVec Format.binary64.exponentBits).toNat < 2 ^ 11 :=
    BitVec.isLt _
  have hmantissa :
      (unpackMantissa x.toBits.toBitVec : BitVec Format.binary64.mantissaBitsWithoutImplicit).toNat < 2 ^ 52 :=
    BitVec.isLt _
  rw [UnpackedFloat.unpack] at h
  split_ifs at h with hinf _ hsubnormal _
  · injection h with _ hm' he'
    rw [hsubnormal] at he'
    have hleast : e = -1074 := he'.symm
    constructor <;> omega
  · injection h with _ hm' he'
    have hlast : (unpackExponent x.toBits.toBitVec : BitVec Format.binary64.exponentBits).toNat ≠ 2047 :=
      fun heq ↦ hinf (BitVec.eq_of_toNat_eq heq)
    have hfirst : (unpackExponent x.toBits.toBitVec : BitVec Format.binary64.exponentBits).toNat ≠ 0 :=
      fun heq ↦ hsubnormal (BitVec.eq_of_toNat_eq heq)
    rw [hbits] at he'
    rw [toNat_one_append] at hm'
    change 2 ^ 52 + _ = m at hm'
    constructor <;> omega

/-! ### Rounding -/

theorem shiftRight_mantissa (em : ExtendedMantissa) (k : ℕ) : (em >>> k).mantissa = em.mantissa / 2 ^ k := by
  induction k generalizing em with
  | zero => exact (Nat.div_one _).symm
  | succ k ih =>
    show (em >>> k).mantissa / 2 = _
    rw [ih, Nat.div_div_eq_div_mul, pow_succ]

theorem le_roundedMantissa (em : ExtendedMantissa) : em.mantissa ≤ em.roundedMantissa := by
  obtain ⟨m, r, s⟩ := em
  cases r <;> cases s <;>
    simp only [ExtendedMantissa.roundedMantissa, ExtendedMantissa.accuracy, Accuracy.roundToNearestEven] <;>
    omega

theorem roundedMantissa_le (em : ExtendedMantissa) : em.roundedMantissa ≤ em.mantissa + 1 := by
  obtain ⟨m, r, s⟩ := em
  cases r <;> cases s <;>
    simp only [ExtendedMantissa.roundedMantissa, ExtendedMantissa.accuracy, Accuracy.roundToNearestEven] <;>
    omega

/-- The exponent that leaves 53 digits, or the least one. -/
theorem targetExponent_binary64 (m : ℕ) (e : ℤ) :
    Format.binary64.targetExponent (totalExponent m e) = max ((m.log2 : ℤ) + e - 52) (-1074) := by
  show max ((m.log2 : ℤ) + 1 + e - 53) (-1074) = _
  omega

/-- The exponent after the digits that are too many have been dropped. -/
theorem shiftToTargetExponent_snd (m : ℕ) (e : ℤ) (a : Accuracy) :
    (shiftToTargetExponent .binary64 m e a).2 = max e (max ((m.log2 : ℤ) + e - 52) (-1074)) := by
  rw [shiftToTargetExponent, shiftToExponent, targetExponent_binary64]
  dsimp only
  omega

/-- The digits that are left. -/
theorem shiftToTargetExponent_fst (m : ℕ) (e : ℤ) :
    (shiftToTargetExponent .binary64 m e .exact).1.mantissa
      = m / 2 ^ ((shiftToTargetExponent .binary64 m e .exact).2 - e).toNat := by
  rw [shiftToTargetExponent, shiftToExponent]
  dsimp only
  rw [shiftRight_mantissa, add_sub_cancel_left, Int.toNat_natCast]
  rfl

theorem shiftToTargetExponent_mantissa_lt (m : ℕ) (e : ℤ) :
    (shiftToTargetExponent .binary64 m e .exact).1.mantissa < 2 ^ 53 := by
  have hexponent := shiftToTargetExponent_snd m e .exact
  rw [shiftToTargetExponent_fst, Nat.div_lt_iff_lt_mul (Nat.two_pow_pos _), ← pow_add]
  exact Nat.lt_log2_self.trans_le (Nat.pow_le_pow_right two_pos (by omega))

/-- Rounding raises the exponent by the digits that it drops, and by one more for a carry. -/
theorem exponent_roundWithAccuracy_le {s s' : Sign} {m m' : ℕ} {e e' : ℤ} {hm' : 0 < m'}
    (h : roundWithAccuracy .binary64 s m e .exact = .finite s' m' e' hm') :
    e' ≤ max e (max ((m.log2 : ℤ) + e - 52) (-1074)) + 1 := by
  rw [roundWithAccuracy] at h
  dsimp only at h
  split_ifs at h
  injection h with _ _ hexponent
  have hdigits : (shiftToTargetExponent .binary64 m e .exact).1.roundedMantissa.log2 ≤ 53 := by
    have hle := (roundedMantissa_le _).trans (shiftToTargetExponent_mantissa_lt m e)
    rw [Nat.log2_eq_log_two]
    exact (Nat.log_mono_right hle).trans_eq (Nat.log_pow one_lt_two 53)
  rw [shiftToTargetExponent_snd] at hexponent
  rw [← hexponent, ← shiftToTargetExponent_snd m e .exact]
  have hleast := shiftToTargetExponent_snd m e .exact
  omega

theorem isFinite_roundWithAccuracy (s : Sign) (m : ℕ) (e : ℤ) :
    (roundWithAccuracy .binary64 s m e .exact).isFinite = true := by
  rw [roundWithAccuracy]
  dsimp only
  split_ifs <;> rfl

/-! ### Zero and a half -/

theorem isFinite_zero_add {x : Float.Model} (h : x.unpack.isFinite = true) :
    (Float.Model.pack (.add .binary64 (.zero .positive) x.unpack)).unpack.isFinite = true := by
  obtain ⟨s, hx⟩ | ⟨s, m, e, hm, hx⟩ := isFinite_cases h
  · rw [hx]
    cases s <;> exact isFinite_pack_zero _
  · rw [hx]
    exact isFinite_pack_finite (isStored_of_unpack hx).exponent_le

/-- A half is the mantissa `2⁵²` with the exponent −53. -/
theorem isFinite_half_mul {x : Float.Model} (h : x.unpack.isFinite = true) :
    (Float.Model.pack (.mul .binary64 (.finite .positive (2 ^ 52) (-53) (by decide)) x.unpack)).unpack.isFinite
      = true := by
  obtain ⟨s, hx⟩ | ⟨s, m, e, hm, hx⟩ := isFinite_cases h
  · rw [hx]
    exact isFinite_pack_zero _
  · obtain ⟨hmantissa, -, hexponent, -⟩ := isStored_of_unpack hx
    rw [hx]
    show (Float.Model.pack
      (roundWithAccuracy .binary64 (.positive * s) (2 ^ 52 * m) (-53 + e) .exact)).unpack.isFinite = true
    have hdigits : (2 ^ 52 * m).log2 ≤ 104 := by
      refine Nat.lt_succ_iff.1 ((Nat.log2_lt (by omega)).2 ?_)
      omega
    obtain ⟨s', hround⟩ | ⟨s', m', e', hm', hround⟩ :=
      isFinite_cases (isFinite_roundWithAccuracy (.positive * s) (2 ^ 52 * m) (-53 + e))
    · rw [hround]
      exact isFinite_pack_zero s'
    · rw [hround]
      have hrounded := exponent_roundWithAccuracy_le hround
      exact isFinite_pack_finite (by omega)

namespace Scalar

theorem isFinite_middle_float {t : Float} (h : isFinite t = true) :
    isFinite ((0.5 : Float) * (0 + t)) = true :=
  isFinite_half_mul (isFinite_zero_add h)

theorem isNaN_mul_float {a b : Float} (h : isNaN b = true) : isNaN (a * b) = true := by
  have hb : b.toModel.unpack = .notANumber := by
    change b.toModel.unpack.isNaN = true at h
    cases hunpack : b.toModel.unpack with
    | notANumber => rfl
    | infinity _ | zero _ | finite _ _ _ _ =>
      rw [hunpack] at h
      cases h
  have hmul : UnpackedFloat.mul .binary64 a.toModel.unpack .notANumber = .notANumber := by
    cases a.toModel.unpack <;> rfl
  show (Float.Model.pack (UnpackedFloat.mul .binary64 a.toModel.unpack b.toModel.unpack)).unpack.isNaN = true
  rw [hb, hmul]
  decide

theorem isRounded_float : IsRounded Float where
  toIsOrdered := isOrdered_float
  isNaN_mul := isNaN_mul_float
  isFinite_middle := isFinite_middle_float

end Scalar

end Float

end ExactPenalty
