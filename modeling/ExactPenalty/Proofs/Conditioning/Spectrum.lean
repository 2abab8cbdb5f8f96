import Mathlib
import ExactPenalty.Proofs.Conditioning

/-!
# The spectrum after clipping

Clipping keeps the eigenvectors of a symmetric matrix and changes its eigenvalues one by one, so what it
does is said by a function of the eigenvalues: `max x (λ_max / t)` if the small ones are raised, and if the
large magnitudes are lowered, `min x (t λ_min)` wherever all eigenvalues are positive.  The first never
lowers an eigenvalue and the second never raises one, and that is all there is to the order between a
matrix and the clipped one.

That the threshold is met is a matter of magnitudes.  Raising looks at values, not at magnitudes, and
so needs an eigenvalue that is positive: then the floor is, and no magnitude is left below it.  Lowering
looks at magnitudes and needs one that is not zero.  Where there is a zero among them the ratio has no
bound, and raising takes its place.

## What is here

* `Mat.HasEigenvalue`, `Mat.IsMapped` — eigenvalues, and matrices with the same eigenvectors.
* `magnitudeRatio_atMost_iff` — the ratio of the magnitudes, as an inequality between any two of them.
* `condition_eq_of_atMost`, `condition_eq_of_not_atMost` — the matrix that was given, or a clipped one.
* `condition_caps_spectrum` — all of it for symmetric matrices with a positive eigenvalue.
-/

set_option autoImplicit false

namespace ExactPenalty

open Linear Matrix

variable {n : Nat}

/-! ## Eigenvalues -/

namespace Mat

/-- The number is an eigenvalue of the matrix. -/
def HasEigenvalue (a : Mat ℝ n n) (x : ℝ) : Prop :=
  ∃ v : Fin n → ℝ, v ≠ 0 ∧ a.toMatrix *ᵥ v = x • v

/-- All eigenvectors of `a` are eigenvectors of `b`, and the function `f` takes their eigenvalues in `a` to
those in `b`. -/
def IsMapped (a : Mat ℝ n n) (f : ℝ → ℝ) (b : Mat ℝ n n) : Prop :=
  ∀ (v : Fin n → ℝ) (x : ℝ), a.toMatrix *ᵥ v = x • v → b.toMatrix *ᵥ v = f x • v

end Mat

namespace Eigen.Decomposes

variable {e : Eigen ℝ n} {a b : Mat ℝ n n} {values : Vector ℝ n}

/-- The coordinates of an eigenvector along the eigenvectors of other eigenvalues are zero. -/
theorem coordinate_mul (h : e.Decomposes a) {v : Fin n → ℝ} {x : ℝ} (hv : a.toMatrix *ᵥ v = x • v)
    (i : Fin n) :
    e.values.get i * (e.vectors.toMatrixᵀ *ᵥ v) i = x * (e.vectors.toMatrixᵀ *ᵥ v) i := by
  have hcoordinates : diagonal e.values.get *ᵥ (e.vectors.toMatrixᵀ *ᵥ v)
      = x • (e.vectors.toMatrixᵀ *ᵥ v) := by
    calc diagonal e.values.get *ᵥ (e.vectors.toMatrixᵀ *ᵥ v)
        = (e.vectors.toMatrixᵀ * e.vectors.toMatrix * diagonal e.values.get
            * e.vectors.toMatrixᵀ) *ᵥ v := by
          rw [h.orthonormal, Matrix.one_mul, mulVec_mulVec]
      _ = e.vectors.toMatrixᵀ *ᵥ (a.toMatrix *ᵥ v) := by
          rw [← h.rebuilt, mulVec_mulVec]
          simp only [Matrix.mul_assoc]
      _ = x • (e.vectors.toMatrixᵀ *ᵥ v) := by rw [hv, mulVec_smul]
  have hentry := congrFun hcoordinates i
  rwa [mulVec_diagonal, Pi.smul_apply, smul_eq_mul] at hentry

/-- The eigenvalues are those of the decomposition. -/
theorem hasEigenvalue_iff (h : e.Decomposes a) {x : ℝ} :
    a.HasEigenvalue x ↔ ∃ i, e.values.get i = x := by
  constructor
  · rintro ⟨v, hv, hx⟩
    by_contra hnone
    refine hv ?_
    have hzero : e.vectors.toMatrixᵀ *ᵥ v = 0 := by
      funext i
      by_contra hi
      exact hnone ⟨i, mul_right_cancel₀ hi (h.coordinate_mul hx i)⟩
    rw [← one_mulVec v, ← h.mul_transpose, ← mulVec_mulVec, hzero, mulVec_zero]
  · rintro ⟨i, rfl⟩
    have hcolumn : e.vectors.toMatrixᵀ *ᵥ (e.vectors.toMatrix *ᵥ Pi.single i 1) = Pi.single i 1 := by
      rw [mulVec_mulVec, h.orthonormal, one_mulVec]
    refine ⟨e.vectors.toMatrix *ᵥ Pi.single i 1, fun hzero ↦ ?_, ?_⟩
    · have hentry : (0 : ℝ) = 1 := by
        rw [hzero, mulVec_zero] at hcolumn
        simpa using congrFun hcolumn i
      exact zero_ne_one hentry
    · rw [← h.rebuilt, ← mulVec_mulVec, hcolumn, ← mulVec_mulVec, diagonal_mulVec_single,
        ← smul_eq_mul, Pi.single_smul, mulVec_smul]

/-- A matrix with these eigenvectors and with the eigenvalues that `f` makes of them. -/
theorem isMapped (h : e.Decomposes a) {f : ℝ → ℝ}
    (hb : ({ e with values := e.values.map f } : Eigen ℝ n).Decomposes b) : a.IsMapped f b := by
  intro v x hv
  have hcoordinates : diagonal (e.values.map f).get *ᵥ (e.vectors.toMatrixᵀ *ᵥ v)
      = f x • (e.vectors.toMatrixᵀ *ᵥ v) := by
    funext i
    rw [mulVec_diagonal, Pi.smul_apply, smul_eq_mul, get_map]
    by_cases hi : (e.vectors.toMatrixᵀ *ᵥ v) i = 0
    · rw [hi, mul_zero, mul_zero]
    · rw [mul_right_cancel₀ hi (h.coordinate_mul hv i)]
  have hrebuilt : e.vectors.toMatrix * diagonal (e.values.map f).get * e.vectors.toMatrixᵀ
      = b.toMatrix := hb.rebuilt
  calc b.toMatrix *ᵥ v
      = e.vectors.toMatrix *ᵥ (diagonal (e.values.map f).get *ᵥ (e.vectors.toMatrixᵀ *ᵥ v)) := by
        rw [← hrebuilt, mulVec_mulVec, mulVec_mulVec, Matrix.mul_assoc]
    _ = f x • ((e.vectors.toMatrix * e.vectors.toMatrixᵀ) *ᵥ v) := by
        rw [hcoordinates, mulVec_smul, mulVec_mulVec]
    _ = f x • v := by rw [h.mul_transpose, one_mulVec]

theorem isSymm (h : e.Decomposes a) : a.toMatrix.IsSymm := by
  rw [← h.rebuilt, IsSymm, transpose_mul, transpose_mul, transpose_transpose, diagonal_transpose,
    Matrix.mul_assoc]

/-- New eigenvalues for the same eigenvectors. -/
theorem rebuild (h : e.Decomposes a) (values : Vector ℝ n) :
    ({ e with values } : Eigen ℝ n).Decomposes ({ e with values } : Eigen ℝ n).rebuild.symmetrized := by
  have hrebuild : ({ e with values } : Eigen ℝ n).Decomposes ({ e with values } : Eigen ℝ n).rebuild :=
    ⟨h.orthonormal, (toMatrix_rebuild _).symm⟩
  exact ⟨h.orthonormal, by rw [Mat.toMatrix_symmetrized _ hrebuild.isSymm, hrebuild.rebuilt]⟩

/-- A matrix with larger eigenvalues for the same eigenvectors is larger. -/
theorem posSemidef_sub (h : e.Decomposes a) (hb : ({ e with values } : Eigen ℝ n).Decomposes b)
    (hle : ∀ i, e.values.get i ≤ values.get i) : (b.toMatrix - a.toMatrix).PosSemidef := by
  have hb' : e.vectors.toMatrix * diagonal values.get * e.vectors.toMatrixᵀ = b.toMatrix := hb.rebuilt
  have hgap : (diagonal (values.get - e.values.get)).PosSemidef :=
    .diagonal fun i ↦ sub_nonneg.2 (hle i)
  rw [← hb', ← h.rebuilt, ← Matrix.sub_mul, ← Matrix.mul_sub, diagonal_sub,
    ← conjTranspose_eq_transpose_of_trivial]
  exact hgap.mul_mul_conjTranspose_same _

end Eigen.Decomposes

/-! ## Magnitudes -/

theorem mem_magnitudes {values : Vector ℝ n} {x : ℝ} :
    x ∈ magnitudes values ↔ ∃ i, |values.get i| = x := by
  simp only [magnitudes, List.mem_map, mem_toList_iff, Scalar.abs_real, exists_exists_eq_and]

/-- The ratio of the magnitudes is at most `t` if none is zero and none more than `t` times another. -/
theorem magnitudeRatio_atMost_iff {values : Vector ℝ n} {t : ℝ} (ht : 1 ≤ t) :
    (magnitudeRatio values).AtMost t
      ↔ ∀ i j, values.get j ≠ 0 ∧ |values.get i| ≤ t * |values.get j| := by
  rw [magnitudeRatio, minimum?_eq, maximum?_eq]
  cases hmin : (magnitudes values).min? with
  | none =>
    rw [List.min?_eq_none_iff] at hmin
    refine iff_of_true ht fun i ↦ ?_
    exact absurd (hmin ▸ mem_magnitudes.2 ⟨i, rfl⟩) List.not_mem_nil
  | some least =>
    obtain ⟨hleast, hle⟩ := List.min?_eq_some_iff.1 hmin
    obtain ⟨j, hj⟩ := mem_magnitudes.1 hleast
    cases hmax : (magnitudes values).max? with
    | none =>
      rw [List.max?_eq_none_iff] at hmax
      exact absurd (hmax ▸ hleast) List.not_mem_nil
    | some greatest =>
      obtain ⟨hgreatest, hge⟩ := List.max?_eq_some_iff.1 hmax
      obtain ⟨i, hi⟩ := mem_magnitudes.1 hgreatest
      dsimp only
      split_ifs with hzero
      · rw [Scalar.same_real] at hzero
        refine iff_of_false (Extended.not_atMost_posInf t) fun h ↦ (h i j).1 ?_
        exact abs_eq_zero.1 (hj.trans hzero)
      · rw [Scalar.same_real] at hzero
        have hpos : 0 < least := lt_of_le_of_ne (hj ▸ abs_nonneg _) (Ne.symm hzero)
        rw [Extended.atMost_finite, div_le_iff₀ hpos]
        constructor
        · intro hratio i' j'
          have hj' : least ≤ |values.get j'| := hle _ (mem_magnitudes.2 ⟨j', rfl⟩)
          refine ⟨abs_pos.1 (hpos.trans_le hj'), ?_⟩
          calc |values.get i'| ≤ greatest := hge _ (mem_magnitudes.2 ⟨i', rfl⟩)
            _ ≤ t * least := hratio
            _ ≤ t * |values.get j'| := mul_le_mul_of_nonneg_left hj' (zero_le_one.trans ht)
        · intro h
          rw [← hi, ← hj]
          exact (h i j).2

/-- No eigenvalue is zero, and none has more than `t` times the magnitude of another. -/
def Mat.IsWithin (a : Mat ℝ n n) (t : ℝ) : Prop :=
  ∀ x y, a.HasEigenvalue x → a.HasEigenvalue y → y ≠ 0 ∧ |x| ≤ t * |y|

/-- The ratio is that of the eigenvalues of the matrix. -/
theorem Eigen.Decomposes.isWithin_iff {e : Eigen ℝ n} {a : Mat ℝ n n} (h : e.Decomposes a) {t : ℝ}
    (ht : 1 ≤ t) : a.IsWithin t ↔ (magnitudeRatio e.values).AtMost t := by
  rw [magnitudeRatio_atMost_iff ht]
  constructor
  · intro hwithin i j
    exact hwithin _ _ (h.hasEigenvalue_iff.2 ⟨i, rfl⟩) (h.hasEigenvalue_iff.2 ⟨j, rfl⟩)
  · intro hratio x y hx hy
    obtain ⟨i, rfl⟩ := h.hasEigenvalue_iff.1 hx
    obtain ⟨j, rfl⟩ := h.hasEigenvalue_iff.1 hy
    exact hratio i j

/-! ## Clipped eigenvalues -/

theorem raiseSmallest_eq {values : Vector ℝ n} {top : ℝ} (htop : IsGreatest (Set.range values.get) top)
    (t : ℝ) : raiseSmallest t values = values.map fun x ↦ max x (top / t) := by
  have hmax : values.toList.max? = some top :=
    List.max?_eq_some_iff.2 ⟨mem_toList_iff.2 htop.1, fun x hx ↦ htop.2 (mem_toList_iff.1 hx)⟩
  rw [raiseSmallest, maximum?_eq, hmax]
  simp only [max_def_lt]

/-- A number whose magnitude is lowered to `cap`, with its sign. -/
noncomputable def loweredTo (cap x : ℝ) : ℝ := if cap < |x| then if x < 0 then -cap else cap else x

theorem lowerLargest_eq {values : Vector ℝ n} {least : ℝ}
    (hleast : IsLeast (Set.range fun i ↦ |values.get i|) least) (t : ℝ) :
    lowerLargest t values = values.map (loweredTo (t * least)) := by
  have hmin : (magnitudes values).min? = some least :=
    List.min?_eq_some_iff.2 ⟨mem_magnitudes.2 hleast.1, fun x hx ↦ hleast.2 (mem_magnitudes.1 hx)⟩
  rw [lowerLargest, minimum?_eq, hmin]
  rfl

theorem abs_loweredTo {cap : ℝ} (hcap : 0 ≤ cap) (x : ℝ) : |loweredTo cap x| = min |x| cap := by
  rw [loweredTo]
  split_ifs with hlt
  · rw [abs_neg, abs_of_nonneg hcap, min_eq_right hlt.le]
  · rw [abs_of_nonneg hcap, min_eq_right hlt.le]
  · rw [min_eq_left (not_lt.1 hlt)]

theorem loweredTo_of_pos {x : ℝ} (hx : 0 < x) (cap : ℝ) : loweredTo cap x = min x cap := by
  rw [loweredTo, abs_of_pos hx, if_neg hx.not_gt, min_comm, min_def_lt]

/-- Raising leaves all eigenvalues between the floor and the largest one. -/
theorem magnitudeRatio_raised {values : Vector ℝ n} {t top : ℝ} (ht : 1 ≤ t) (hpos : 0 < top)
    (htop : IsGreatest (Set.range values.get) top) :
    (magnitudeRatio (values.map fun x ↦ max x (top / t))).AtMost t := by
  have ht0 : 0 < t := one_pos.trans_le ht
  have hfloor (i : Fin n) : top / t ≤ max (values.get i) (top / t) := le_max_right _ _
  have hfloor_pos : 0 < top / t := div_pos hpos ht0
  refine (magnitudeRatio_atMost_iff ht).2 fun i j ↦ ?_
  rw [get_map, get_map, abs_of_pos (hfloor_pos.trans_le (hfloor i)),
    abs_of_pos (hfloor_pos.trans_le (hfloor j))]
  refine ⟨(hfloor_pos.trans_le (hfloor j)).ne', ?_⟩
  calc max (values.get i) (top / t) ≤ top :=
        max_le (htop.2 ⟨i, rfl⟩) (div_le_self hpos.le ht)
    _ = t * (top / t) := (mul_div_cancel₀ top ht0.ne').symm
    _ ≤ t * max (values.get j) (top / t) := mul_le_mul_of_nonneg_left (hfloor j) ht0.le

/-- Lowering leaves all magnitudes between the smallest one and the cap. -/
theorem magnitudeRatio_lowered {values : Vector ℝ n} {t least : ℝ} (ht : 1 ≤ t) (hpos : 0 < least)
    (hleast : IsLeast (Set.range fun i ↦ |values.get i|) least) :
    (magnitudeRatio (values.map (loweredTo (t * least)))).AtMost t := by
  have ht0 : 0 < t := one_pos.trans_le ht
  have hcap : least ≤ t * least := le_mul_of_one_le_left hpos.le ht
  have habove (j : Fin n) : least ≤ |loweredTo (t * least) (values.get j)| := by
    rw [abs_loweredTo (hpos.le.trans hcap)]
    exact le_min (hleast.2 ⟨j, rfl⟩) hcap
  refine (magnitudeRatio_atMost_iff ht).2 fun i j ↦ ?_
  rw [get_map, get_map]
  refine ⟨abs_pos.1 (hpos.trans_le (habove j)), ?_⟩
  calc |loweredTo (t * least) (values.get i)| ≤ t * least := by
        rw [abs_loweredTo (hpos.le.trans hcap)]
        exact min_le_right _ _
    _ ≤ t * |loweredTo (t * least) (values.get j)| := mul_le_mul_of_nonneg_left (habove j) ht0.le

/-! ## Conditioning -/

section Condition

variable {eigen : EigenMethod ℝ} {o : ConditioningOptions ℝ} {t : ℝ} (ht : 1 ≤ t)
  (ho : o.threshold = .finite t) {h : Mat ℝ n n}
include ht ho

theorem condition_eq_of_atMost (hle : (magnitudeRatio (spectrum eigen h).values).AtMost t) :
    condition eigen o h = ⟨h, true, false⟩ := by
  rw [condition, ho]
  dsimp only
  rw [Scalar.larger_real, max_eq_left ht, if_pos hle, ite_self]

/-- A matrix beyond the threshold has its large magnitudes lowered if that is asked for and no eigenvalue
is zero, and its small eigenvalues raised if not. -/
theorem condition_eq_of_not_atMost (hnot : ¬ (magnitudeRatio (spectrum eigen h).values).AtMost t) :
    ∃ values, (condition eigen o h).unchanged = false ∧
      (condition eigen o h).matrix
        = ({ spectrum eigen h with values } : Eigen ℝ n).rebuild.symmetrized ∧
      ((o.lowerLargest = true ∧ (∀ i, (spectrum eigen h).values.get i ≠ 0) ∧
          values = lowerLargest t (spectrum eigen h).values) ∨
        ((o.lowerLargest = false ∨ ∃ i, (spectrum eigen h).values.get i = 0) ∧
          values = raiseSmallest t (spectrum eigen h).values)) := by
  have hn : n ≠ 0 := by
    rintro rfl
    exact hnot ((magnitudeRatio_atMost_iff ht).2 fun i ↦ i.elim0)
  have hzero : ((spectrum eigen h).values.any fun v ↦ decide (Scalar.Same v 0)) = true
      ↔ ∃ i, (spectrum eigen h).values.get i = 0 := by
    rw [← Vector.any_toList, List.any_eq_true]
    simp only [mem_toList_iff, Scalar.same_real, decide_eq_true_eq, exists_exists_eq_and]
  rw [condition, ho]
  dsimp only
  rw [Scalar.larger_real, max_eq_left ht, if_neg hn, if_neg hnot]
  refine ⟨_, rfl, rfl, ?_⟩
  by_cases hlower : o.lowerLargest = true ∧ ∀ i, (spectrum eigen h).values.get i ≠ 0
  · refine .inl ⟨hlower.1, hlower.2, if_pos ?_⟩
    rw [hlower.1, Bool.true_and, Bool.not_eq_true', Bool.eq_false_iff, Ne, hzero]
    exact fun ⟨i, hi⟩ ↦ hlower.2 i hi
  · rw [not_and_or, Bool.not_eq_true] at hlower
    have hraise : o.lowerLargest = false ∨ ∃ i, (spectrum eigen h).values.get i = 0 :=
      hlower.imp_right fun hall ↦ by simpa using hall
    refine .inr ⟨hraise, if_neg fun hboth ↦ ?_⟩
    rw [Bool.and_eq_true, Bool.not_eq_true', Bool.eq_false_iff, Ne, hzero] at hboth
    rcases hraise with hraise | hraise
    · rw [hraise] at hboth
      cases hboth.1
    · exact hboth.2 hraise

end Condition

/-- **A matrix beyond the threshold is brought within it**, in one of the two ways. -/
theorem clipped_of_not_isWithin {eigen : EigenMethod ℝ} (heigen : eigen.IsExact)
    {o : ConditioningOptions ℝ} {t : ℝ} (ht : 1 ≤ t) (ho : o.threshold = .finite t) {h : Mat ℝ n n}
    (hsymm : h.toMatrix.IsSymm) (hpos : ∃ x, 0 < x ∧ h.HasEigenvalue x) (hnot : ¬ h.IsWithin t) :
    (condition eigen o h).unchanged = false ∧ (condition eigen o h).matrix.IsWithin t ∧
      ((o.lowerLargest = true ∧ ¬ h.HasEigenvalue 0 ∧
          ∃ least, IsLeast (Set.range fun i ↦ |(spectrum eigen h).values.get i|) least ∧
            ({ spectrum eigen h with values := (spectrum eigen h).values.map (loweredTo (t * least)) } :
              Eigen ℝ n).Decomposes (condition eigen o h).matrix) ∨
        ((o.lowerLargest = false ∨ h.HasEigenvalue 0) ∧
          ∃ top, IsGreatest {x | h.HasEigenvalue x} top ∧
            ({ spectrum eigen h with values := (spectrum eigen h).values.map fun x ↦ max x (top / t) } :
              Eigen ℝ n).Decomposes (condition eigen o h).matrix)) := by
  have hdec : (spectrum eigen h).Decomposes h := heigen.decomposes_spectrum hsymm
  obtain ⟨x, hx, hxh⟩ := hpos
  obtain ⟨i, hi⟩ := hdec.hasEigenvalue_iff.1 hxh
  have : Nonempty (Fin n) := ⟨i⟩
  obtain ⟨values, hchanged, hmatrix, ⟨hlower, hnonzero, rfl⟩ | ⟨hraise, rfl⟩⟩ :=
    condition_eq_of_not_atMost ht ho ((hdec.isWithin_iff ht).not.1 hnot)
  · obtain ⟨j, hj⟩ := Finite.exists_min fun i ↦ |(spectrum eigen h).values.get i|
    have hleast : IsLeast (Set.range fun i ↦ |(spectrum eigen h).values.get i|)
        |(spectrum eigen h).values.get j| := ⟨⟨j, rfl⟩, Set.forall_mem_range.2 hj⟩
    have hclipped := hdec.rebuild (lowerLargest t (spectrum eigen h).values)
    rw [← hmatrix, lowerLargest_eq hleast] at hclipped
    refine ⟨hchanged, ?_, .inl ⟨hlower, fun hzero ↦ ?_, _, hleast, hclipped⟩⟩
    · exact (hclipped.isWithin_iff ht).2 (magnitudeRatio_lowered ht (abs_pos.2 (hnonzero j)) hleast)
    · obtain ⟨k, hk⟩ := hdec.hasEigenvalue_iff.1 hzero
      exact hnonzero k hk
  · obtain ⟨j, hj⟩ := Finite.exists_max (spectrum eigen h).values.get
    have htop : IsGreatest (Set.range (spectrum eigen h).values.get) ((spectrum eigen h).values.get j) :=
      ⟨⟨j, rfl⟩, Set.forall_mem_range.2 hj⟩
    have hspectrum : {x | h.HasEigenvalue x} = Set.range (spectrum eigen h).values.get :=
      Set.ext fun x ↦ hdec.hasEigenvalue_iff
    have hclipped := hdec.rebuild (raiseSmallest t (spectrum eigen h).values)
    rw [← hmatrix, raiseSmallest_eq htop] at hclipped
    refine ⟨hchanged, ?_,
      .inr ⟨hraise.imp_right hdec.hasEigenvalue_iff.2, _, hspectrum ▸ htop, hclipped⟩⟩
    exact (hclipped.isWithin_iff ht).2 (magnitudeRatio_raised ht ((hi ▸ hx).trans_le (hj i)) htop)

namespace Mat

theorem IsMapped.congr {a b : Mat ℝ n n} {f g : ℝ → ℝ} (h : a.IsMapped f b)
    (hfg : ∀ x, a.HasEigenvalue x → f x = g x) : a.IsMapped g b := by
  intro v x hv
  rcases eq_or_ne v 0 with rfl | hne
  · rw [mulVec_zero, smul_zero]
  · rw [← hfg x ⟨v, hne, hv⟩]
    exact h v x hv

theorem isMapped_id (a : Mat ℝ n n) : a.IsMapped id a := fun _ _ hv ↦ hv

theorem HasEigenvalue.nonneg {a : Mat ℝ n n} (ha : a.toMatrix.PosSemidef) {x : ℝ}
    (hx : a.HasEigenvalue x) : 0 ≤ x := by
  obtain ⟨v, hv, hx⟩ := hx
  have hform : 0 ≤ v ⬝ᵥ a.toMatrix *ᵥ v := ha.dotProduct_mulVec_nonneg v
  rw [hx, dotProduct_smul, smul_eq_mul] at hform
  exact nonneg_of_mul_nonneg_left hform (dotProduct_self_star_pos_iff.2 hv)

theorem HasEigenvalue.pos {a : Mat ℝ n n} (ha : a.toMatrix.PosDef) {x : ℝ}
    (hx : a.HasEigenvalue x) : 0 < x := by
  obtain ⟨v, hv, hx⟩ := hx
  have hform : 0 < v ⬝ᵥ a.toMatrix *ᵥ v := ha.dotProduct_mulVec_pos hv
  rw [hx, dotProduct_smul, smul_eq_mul] at hform
  exact pos_of_mul_pos_left hform (dotProduct_self_star_nonneg v)

/-- Within the threshold there is nothing to raise in a semidefinite matrix. -/
theorem IsWithin.max_eq {a : Mat ℝ n n} {t top x : ℝ} (h : a.IsWithin t) (ht : 1 ≤ t)
    (ha : a.toMatrix.PosSemidef) (htop : a.HasEigenvalue top) (hx : a.HasEigenvalue x) :
    max x (top / t) = x := by
  have hle := (h top x htop hx).2
  rw [abs_of_nonneg (htop.nonneg ha), abs_of_nonneg (hx.nonneg ha)] at hle
  exact max_eq_left ((div_le_iff₀' (one_pos.trans_le ht)).2 hle)

/-- Within the threshold there is nothing to lower in a definite matrix. -/
theorem IsWithin.min_eq {a : Mat ℝ n n} {t least x : ℝ} (h : a.IsWithin t)
    (ha : a.toMatrix.PosDef) (hleast : a.HasEigenvalue least) (hx : a.HasEigenvalue x) :
    min x (t * least) = x := by
  have hle := (h x least hx hleast).2
  rw [abs_of_pos (hx.pos ha), abs_of_pos (hleast.pos ha)] at hle
  exact min_eq_left hle

end Mat

/-- The smallest magnitude of a definite matrix is its smallest eigenvalue. -/
theorem Eigen.Decomposes.isLeast_of_posDef {e : Eigen ℝ n} {a : Mat ℝ n n} (h : e.Decomposes a)
    (ha : a.toMatrix.PosDef) {least : ℝ} (hleast : IsLeast (Set.range fun i ↦ |e.values.get i|) least) :
    IsLeast {x | a.HasEigenvalue x} least := by
  have habs (i : Fin n) : |e.values.get i| = e.values.get i := abs_of_pos (h.posDef_iff.1 ha i)
  obtain ⟨⟨i, hi⟩, hle⟩ := hleast
  refine ⟨h.hasEigenvalue_iff.2 ⟨i, (habs i).symm.trans hi⟩, fun x hx ↦ ?_⟩
  obtain ⟨j, rfl⟩ := h.hasEigenvalue_iff.1 hx
  rw [← habs j]
  exact hle ⟨j, rfl⟩

/-- **Conditioning caps the spectrum.**  Take a symmetric matrix `h` with a positive eigenvalue and a
threshold `t` of at least one.  The conditioned matrix `b` is symmetric, has the eigenvectors of `h` and
is within the threshold; it is `h` itself exactly if `h` was, so conditioning it again changes nothing.
It is positive definite if `h` is.

If small eigenvalues are raised, because that is asked for or because `h` has the eigenvalue zero, then `b`
is above `h`, and its eigenvalues are `max x (top / t)`; a matrix that is kept although it has a negative
eigenvalue is the one exception.  If large ones are lowered in a positive definite `h`, then `b` is below
`h`, and its eigenvalues are `min x (t least)`. -/
theorem condition_caps_spectrum {eigen : EigenMethod ℝ} (heigen : eigen.IsExact)
    {o : ConditioningOptions ℝ} {t : ℝ} (ht : 1 ≤ t) (ho : o.threshold = .finite t) {h : Mat ℝ n n}
    (hsymm : h.toMatrix.IsSymm) (hpos : ∃ x, 0 < x ∧ h.HasEigenvalue x) :
    ∃ b, b = (condition eigen o h).matrix ∧
      b.toMatrix.IsSymm ∧ (∃ f, h.IsMapped f b) ∧ b.IsWithin t ∧ (conditionNumber eigen b).AtMost t ∧
      ((condition eigen o h).unchanged = true ↔ h.IsWithin t) ∧ (b = h ↔ h.IsWithin t) ∧
      condition eigen o b = ⟨b, true, false⟩ ∧
      (h.toMatrix.PosDef → b.toMatrix.PosDef) ∧
      (o.lowerLargest = false ∨ h.HasEigenvalue 0 →
        (b.toMatrix - h.toMatrix).PosSemidef ∧
        ∀ top, IsGreatest {x | h.HasEigenvalue x} top → h.toMatrix.PosSemidef ∨ b ≠ h →
          h.IsMapped (fun x ↦ max x (top / t)) b) ∧
      (o.lowerLargest = true → h.toMatrix.PosDef →
        (h.toMatrix - b.toMatrix).PosSemidef ∧
        ∀ least, IsLeast {x | h.HasEigenvalue x} least →
          h.IsMapped (fun x ↦ min x (t * least)) b) := by
  have hdec : (spectrum eigen h).Decomposes h := heigen.decomposes_spectrum hsymm
  have hnumber {a : Mat ℝ n n} (ha : a.toMatrix.IsSymm) (hwithin : a.IsWithin t) :
      (conditionNumber eigen a).AtMost t := ((heigen.decomposes_spectrum ha).isWithin_iff ht).1 hwithin
  have hkept {a : Mat ℝ n n} (ha : a.toMatrix.IsSymm) (hwithin : a.IsWithin t) :
      condition eigen o a = ⟨a, true, false⟩ := condition_eq_of_atMost ht ho (hnumber ha hwithin)
  by_cases hwithin : h.IsWithin t
  · have heq : condition eigen o h = ⟨h, true, false⟩ := hkept hsymm hwithin
    refine ⟨h, by rw [heq], hsymm, ⟨id, h.isMapped_id⟩, hwithin, hnumber hsymm hwithin,
      iff_of_true (by rw [heq]) hwithin, iff_of_true rfl hwithin, heq, id,
      fun _ ↦ ⟨?_, fun top htop hcase ↦ ?_⟩,
      fun _ hdef ↦ ⟨?_, fun least hleast ↦ ?_⟩⟩
    · rw [sub_self]
      exact .zero
    · have hsemidef := hcase.resolve_right fun hne ↦ hne rfl
      exact h.isMapped_id.congr fun x hx ↦ (hwithin.max_eq ht hsemidef htop.1 hx).symm
    · rw [sub_self]
      exact .zero
    · exact h.isMapped_id.congr fun x hx ↦ (hwithin.min_eq hdef hleast.1 hx).symm
  · obtain ⟨hchanged, hbwithin, hclipped⟩ := clipped_of_not_isWithin heigen ht ho hsymm hpos hwithin
    have hne : (condition eigen o h).matrix ≠ h := fun heq ↦ hwithin (heq ▸ hbwithin)
    have hunchanged : ¬ (condition eigen o h).unchanged = true := by
      rw [hchanged]
      exact Bool.false_ne_true
    have hbsymm : (condition eigen o h).matrix.toMatrix.IsSymm := by
      obtain ⟨-, -, _, -, hb⟩ | ⟨-, _, -, hb⟩ := hclipped
      · exact hb.isSymm
      · exact hb.isSymm
    refine ⟨_, rfl, hbsymm, ?_, hbwithin, hnumber hbsymm hbwithin, iff_of_false hunchanged hwithin,
      iff_of_false hne hwithin, hkept hbsymm hbwithin, posDef_condition heigen o, fun hraise ↦ ?_, fun hlower hdef ↦ ?_⟩
    · obtain ⟨-, -, _, -, hb⟩ | ⟨-, _, -, hb⟩ := hclipped
      · exact ⟨_, hdec.isMapped hb⟩
      · exact ⟨_, hdec.isMapped hb⟩
    · obtain ⟨hlower, hzero, -⟩ | ⟨-, top, htop, hb⟩ := hclipped
      · rcases hraise with hraise | hraise
        · rw [hlower] at hraise
          cases hraise
        · exact absurd hraise hzero
      · refine ⟨hdec.posSemidef_sub hb fun i ↦ ?_, fun top' htop' _ ↦ ?_⟩
        · rw [get_map]
          exact le_max_left _ _
        · rw [htop'.unique htop]
          exact hdec.isMapped hb
    · obtain ⟨-, -, least, hleast, hb⟩ | ⟨hraise, -⟩ := hclipped
      · refine ⟨hb.posSemidef_sub hdec fun i ↦ ?_, fun least' hleast' ↦ ?_⟩
        · rw [get_map, loweredTo_of_pos (hdec.posDef_iff.1 hdef i)]
          exact min_le_left _ _
        · rw [hleast'.unique (hdec.isLeast_of_posDef hdef hleast)]
          exact (hdec.isMapped hb).congr fun x hx ↦ loweredTo_of_pos (hx.pos hdef) _
      · rcases hraise with hraise | hraise
        · rw [hlower] at hraise
          cases hraise
        · exact absurd (hraise.pos hdef) (lt_irrefl 0)

/-- A diagonal matrix whose two eigenvalues, 1000 and 1, are far apart. -/
noncomputable def farApart : Mat ℝ 2 2 :=
  Mat.ofFn fun i j ↦ if i = j then (#v[1000, 1] : Vector ℝ 2).get i else 0

theorem decomposes_farApart :
    (⟨#v[1000, 1], Mat.identity ℝ 2⟩ : Eigen ℝ 2).Decomposes farApart where
  orthonormal := by rw [Mat.toMatrix_identity, transpose_one, Matrix.one_mul]
  rebuilt := by
    rw [Mat.toMatrix_identity, transpose_one, Matrix.one_mul, Matrix.mul_one, farApart, Mat.toMatrix_ofFn]
    rfl

/-- With a threshold of ten the eigenvalue 1000 is lowered to 10, and the other one stays. -/
theorem condition_caps_spectrum_farApart :
    EigenMethod.exact.IsExact ∧ (1 : ℝ) ≤ 10 ∧ farApart.toMatrix.IsSymm ∧
    (∃ x, 0 < x ∧ farApart.HasEigenvalue x) ∧
    farApart.IsMapped (fun x ↦ min x 10)
      (condition EigenMethod.exact ⟨.finite 10, true⟩ farApart).matrix ∧
    (condition EigenMethod.exact ⟨.finite 10, true⟩ farApart).matrix.HasEigenvalue 10 := by
  have hdec := decomposes_farApart
  have hpos (i : Fin 2) : 0 < (#v[1000, 1] : Vector ℝ 2).get i := by
    fin_cases i <;> norm_num [get_eq]
  have hdef : farApart.toMatrix.PosDef := hdec.posDef_iff.2 hpos
  have hexists : ∃ x, 0 < x ∧ farApart.HasEigenvalue x :=
    ⟨_, hpos 0, hdec.hasEigenvalue_iff.2 ⟨0, rfl⟩⟩
  have hleast : IsLeast {x | farApart.HasEigenvalue x} 1 := by
    refine ⟨hdec.hasEigenvalue_iff.2 ⟨1, rfl⟩, fun x hx ↦ ?_⟩
    obtain ⟨i, rfl⟩ := hdec.hasEigenvalue_iff.1 hx
    fin_cases i <;> norm_num [get_eq]
  obtain ⟨b, hb, -, -, -, -, -, -, -, -, -, hlowered⟩ := condition_caps_spectrum
    EigenMethod.exact_isExact (o := ⟨.finite 10, true⟩) (t := 10) (by norm_num) rfl hdec.isSymm hexists
  have hmapped := ((hlowered rfl hdef).2 1 hleast).congr (g := fun x ↦ min x 10) fun x _ ↦ by norm_num
  obtain ⟨v, hv, hv'⟩ := hdec.hasEigenvalue_iff.2 ⟨0, rfl⟩
  refine ⟨EigenMethod.exact_isExact, by norm_num, hdec.isSymm, hexists, hb ▸ hmapped, v, hv, ?_⟩
  rw [← hb, hmapped v _ hv']
  norm_num [get_eq]

end ExactPenalty
