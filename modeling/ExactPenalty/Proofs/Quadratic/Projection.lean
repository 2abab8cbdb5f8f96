import Mathlib
import ExactPenalty.Proofs.Quadratic

/-!
# Nearest points

A point `p` of a convex set is the nearest one to `y` as soon as no point of the set is seen from `p` at
an acute angle to `y`: `(y − p)ᵀ(z − p) ≤ 0` for every `z` of the set.  Everything that is said about
projections below follows from this inequality (`FeasibleSet.IsFoot`), and what is left is that
`FeasibleSet.project` satisfies it.

Over a box that is a matter of single components.  Over the simplex the projection subtracts one amount
`θ` from every entry and cuts off at zero, and the inequality holds if what is left sums to one.  The
loop that finds `θ` reads the entries in descending order and keeps the last one that passes a test.  An
entry passes if it exceeds the mean of what would be left of it and those before it; once one has
failed, no later one can pass, because the entries descend.  So the entries that pass come first, and they
are the ones that stay above `θ` (`leftAbove_simplexShift`).

## What is here

* `FeasibleSet.IsFoot` — the inequality, and what follows from it.
* `leftAbove_simplexShift`, `sum_projectSimplex` — the loop.
* `FeasibleSet.IsProper`, `FeasibleSet.isFoot_project` — every nonempty set has its projection.
* `project_is_nearest` — the nearest point, and the laws of the projection.
-/

set_option autoImplicit false

namespace ExactPenalty

open Linear Matrix

variable {m : Nat}

/-! ## Feet of perpendiculars -/

theorem dotProduct_sub_self (u v : Fin m → ℝ) :
    (u - v) ⬝ᵥ (u - v) = u ⬝ᵥ u - 2 * (u ⬝ᵥ v) + v ⬝ᵥ v := by
  rw [sub_dotProduct, dotProduct_sub, dotProduct_sub, dotProduct_comm v u]
  ring

namespace FeasibleSet

/-- The point lies in the set, and none of the set is seen from it at an acute angle to `y`. -/
structure IsFoot (set : FeasibleSet ℝ m) (y p : Vector ℝ m) : Prop where
  contains : set.Contains p
  angle : ∀ z, set.Contains z → (y.get - p.get) ⬝ᵥ (z.get - p.get) ≤ 0

namespace IsFoot

variable {set : FeasibleSet ℝ m} {x y p q : Vector ℝ m}

theorem sq_add_le (hp : set.IsFoot y p) {z : Vector ℝ m} (hz : set.Contains z) :
    (y.get - p.get) ⬝ᵥ (y.get - p.get) + (z.get - p.get) ⬝ᵥ (z.get - p.get)
      ≤ (y.get - z.get) ⬝ᵥ (y.get - z.get) := by
  have hsplit : y.get - z.get = (y.get - p.get) - (z.get - p.get) := by abel
  rw [hsplit, dotProduct_sub_self (y.get - p.get)]
  linarith [hp.angle z hz]

/-- Every other point of the set is strictly farther away. -/
theorem norm₂_lt (hp : set.IsFoot y p) {z : Vector ℝ m} (hz : set.Contains z) (hne : z ≠ p) :
    norm₂ (y - p) < norm₂ (y - z) := by
  have hapart : z.get - p.get ≠ 0 := fun h ↦ hne (ext_get fun i ↦ congrFun (sub_eq_zero.1 h) i)
  have hgap : 0 < (z.get - p.get) ⬝ᵥ (z.get - p.get) := dotProduct_self_star_pos_iff.2 hapart
  rw [norm₂_eq, norm₂_eq, get_sub, get_sub]
  exact Real.sqrt_lt_sqrt (dotProduct_self_star_nonneg _) (by linarith [hp.sq_add_le hz])

/-- A point of the set is its own nearest one. -/
theorem eq_of_contains (hp : set.IsFoot y p) (hy : set.Contains y) : p = y := by
  by_contra hne
  have hlt := hp.norm₂_lt hy (Ne.symm hne)
  rw [norm₂_eq, norm₂_eq, get_sub y y, sub_self, dotProduct_zero, Real.sqrt_zero] at hlt
  exact hlt.not_ge (Real.sqrt_nonneg _)

/-- Nearest points are no farther apart than the points they belong to. -/
theorem norm₂_le (hp : set.IsFoot x p) (hq : set.IsFoot y q) : norm₂ (p - q) ≤ norm₂ (x - y) := by
  have hangles : (p.get - q.get) ⬝ᵥ (p.get - q.get) ≤ (x.get - y.get) ⬝ᵥ (p.get - q.get) := by
    have hsum := add_le_add (hp.angle q hq.contains) (hq.angle p hp.contains)
    simp only [sub_dotProduct, dotProduct_sub] at hsum ⊢
    linarith [dotProduct_comm p.get q.get]
  have hsquare : 0 ≤ (x.get - y.get - (p.get - q.get)) ⬝ᵥ (x.get - y.get - (p.get - q.get)) :=
    dotProduct_self_star_nonneg _
  rw [norm₂_eq, norm₂_eq, get_sub, get_sub]
  refine Real.sqrt_le_sqrt ?_
  rw [dotProduct_sub_self] at hsquare
  linarith

end IsFoot

end FeasibleSet

/-! ## The loop over the descending entries -/

/-- What is left of the entries of a list if `θ` is subtracted and the rest cut off at zero. -/
noncomputable def leftAbove (θ : ℝ) (l : List ℝ) : ℝ := (l.map fun v ↦ max (v - θ) 0).sum

theorem leftAbove_of_forall_le {θ : ℝ} {l : List ℝ} (h : ∀ v ∈ l, v ≤ θ) : leftAbove θ l = 0 := by
  rw [leftAbove]
  exact List.sum_eq_zero fun w hw ↦ by
    obtain ⟨v, hv, rfl⟩ := List.mem_map.1 hw
    exact max_eq_right (sub_nonpos.2 (h v hv))

theorem leftAbove_of_forall_lt {θ : ℝ} {l : List ℝ} (h : ∀ v ∈ l, θ < v) :
    leftAbove θ l = l.sum - l.length * θ := by
  induction l with
  | nil => simp [leftAbove]
  | cons v l ih =>
    obtain ⟨hv, hl⟩ := List.forall_mem_cons.1 h
    have hrest := ih hl
    rw [leftAbove] at hrest ⊢
    rw [List.map_cons, List.sum_cons, List.sum_cons, hrest, max_eq_left (sub_nonneg.2 hv.le),
      List.length_cons]
    push_cast
    ring

theorem leftAbove_append (θ : ℝ) (l l' : List ℝ) :
    leftAbove θ (l ++ l') = leftAbove θ l + leftAbove θ l' := by
  rw [leftAbove, List.map_append, List.sum_append]
  rfl

/-- An entry passes the test of the loop if it exceeds the mean excess of those up to it. -/
theorem lt_sub_candidate_iff {k : ℕ} {total v : ℝ} :
    0 < v - (total + v - 1) / ((k : ℝ) + 1) ↔ total - 1 < k * v := by
  have hk : (0 : ℝ) < (k : ℝ) + 1 := by positivity
  rw [sub_pos, div_lt_iff₀ hk]
  constructor <;> intro h <;> linarith

/-- Once an entry has failed, no later one passes. -/
theorem simplexShift_of_failed {k : ℕ} {total : ℝ} (θ : ℝ) {rest : List ℝ}
    (hrest : rest.Pairwise (· ≥ ·)) (hfailed : ∀ v ∈ rest, k * v ≤ total - 1) :
    simplexShift k total θ rest = θ := by
  induction rest generalizing k total with
  | nil => rfl
  | cons v rest ih =>
    obtain ⟨hv, hdescending⟩ := List.pairwise_cons.1 hrest
    have hfail : ¬ 0 < v - (total + v - 1) / ((k : ℝ) + 1) :=
      lt_sub_candidate_iff.not.2 (hfailed v List.mem_cons_self).not_gt
    rw [simplexShift, if_neg hfail]
    refine ih hdescending fun w hw ↦ ?_
    have hlater := hfailed w (List.mem_cons_of_mem v hw)
    push_cast
    linarith [hv w hw]

/-- **The loop ends with the amount that leaves one.**  The entries `seen` all passed and stay above `θ`,
which leaves one of them. -/
theorem leftAbove_simplexShift {seen rest : List ℝ} {θ : ℝ}
    (hdescending : (seen ++ rest).Pairwise (· ≥ ·)) (habove : ∀ v ∈ seen, θ < v)
    (hone : leftAbove θ seen = 1) :
    leftAbove (simplexShift seen.length seen.sum θ rest) (seen ++ rest) = 1 := by
  induction rest generalizing seen θ with
  | nil => rwa [List.append_nil]
  | cons v rest ih =>
    have hseen : seen.sum - 1 = seen.length * θ := by
      linarith [leftAbove_of_forall_lt habove]
    obtain ⟨-, hlater, hbefore⟩ := List.pairwise_append.1 hdescending
    by_cases hpass : 0 < v - (seen.sum + v - 1) / ((seen.length : ℝ) + 1)
    · let next := (seen.sum + v - 1) / ((seen.length : ℝ) + 1)
      have habove' : ∀ w ∈ seen ++ [v], next < w := by
        intro w hw
        rcases List.mem_append.1 hw with hw | hw
        · exact (sub_pos.1 hpass).trans_le (hbefore w hw v List.mem_cons_self)
        · exact List.mem_singleton.1 hw ▸ sub_pos.1 hpass
      have hone' : leftAbove next (seen ++ [v]) = 1 := by
        have hmean : ((seen.length : ℝ) + 1) * next = seen.sum + v - 1 :=
          mul_div_cancel₀ _ (by positivity)
        rw [leftAbove_of_forall_lt habove', List.sum_append, List.sum_singleton, List.length_append,
          List.length_singleton]
        push_cast
        linarith
      have hround := ih (by rwa [List.append_assoc]) habove' hone'
      rw [simplexShift, if_pos hpass]
      rwa [List.append_assoc, List.sum_append, List.sum_singleton, List.length_append] at hround
    · have hfail : seen.length * v ≤ seen.sum - 1 := not_lt.1 (lt_sub_candidate_iff.not.1 hpass)
      have hle (w : ℝ) (hw : w ∈ v :: rest) : w ≤ v := by
        rcases List.mem_cons.1 hw with rfl | hw
        · exact le_rfl
        · exact (List.pairwise_cons.1 hlater).1 w hw
      have hlength : (0 : ℝ) < seen.length := by
        refine Nat.cast_pos.2 (List.length_pos_iff.2 fun h ↦ ?_)
        rw [h] at hone
        exact zero_ne_one hone
      have hvθ : v ≤ θ := le_of_mul_le_mul_left (hfail.trans_eq hseen) hlength
      have hstop : simplexShift seen.length seen.sum θ (v :: rest) = θ :=
        simplexShift_of_failed θ hlater fun w hw ↦
          (mul_le_mul_of_nonneg_left (hle w hw) hlength.le).trans hfail
      rw [hstop, leftAbove_append, hone, leftAbove_of_forall_le fun w hw ↦ (hle w hw).trans hvθ, add_zero]

/-- The first entry always passes, so for a list that is not empty one is left. -/
theorem leftAbove_simplexShift_start {l : List ℝ} (hdescending : l.Pairwise (· ≥ ·)) (hl : l ≠ []) :
    leftAbove (simplexShift 0 0 0 l) l = 1 := by
  obtain ⟨v, rest, rfl⟩ := List.exists_cons_of_ne_nil hl
  have hpass : 0 < v - (0 + v - 1) / (((0 : ℕ) : ℝ) + 1) := by
    rw [lt_sub_candidate_iff]
    norm_num
  have habove : ∀ w ∈ [v], v - 1 < w := by simp
  have hfirst : leftAbove (v - 1) [v] = 1 := by simp [leftAbove]
  have hround := leftAbove_simplexShift hdescending habove hfirst
  have hstart : simplexShift 0 0 0 (v :: rest) = simplexShift 1 v (v - 1) rest := by
    rw [simplexShift, if_pos hpass]
    norm_num
  rw [hstart]
  simpa using hround

/-! ## The simplex -/

theorem pairwise_descending (y : Vector ℝ m) : (descending y).Pairwise (· ≥ ·) := by
  have htrans (a b c : ℝ) (hab : (Scalar.isNaN a || decide (b ≤ a)) = true)
      (hbc : (Scalar.isNaN b || decide (c ≤ b)) = true) : (Scalar.isNaN a || decide (c ≤ a)) = true := by
    simp only [Scalar.isNaN_real, Bool.false_or, decide_eq_true_eq] at *
    exact hbc.trans hab
  have htotal (a b : ℝ) :
      (Scalar.isNaN a || decide (b ≤ a) || (Scalar.isNaN b || decide (a ≤ b))) = true := by
    simpa using le_total b a
  simpa [descending] using List.pairwise_mergeSort htrans htotal y.toList

/-- The weights of the projection. -/
theorem get_projectSimplex (y : Vector ℝ m) (i : Fin m) :
    (projectSimplex y).get i = max (y.get i - simplexShift 0 0 0 (descending y)) 0 := by
  rw [projectSimplex, get_map, Scalar.larger_real]

theorem toList_eq_ofFn {α : Type} {n : Nat} (v : Vector α n) : v.toList = List.ofFn v.get :=
  List.ext_getElem (by simp) fun i h h' ↦ by simp [get_eq]

/-- **The weights of the projection add up to one.** -/
theorem sum_projectSimplex (hm : 0 < m) (y : Vector ℝ m) : ∑ i, (projectSimplex y).get i = 1 := by
  have hperm : (descending y).Perm y.toList := List.mergeSort_perm _ _
  have hne : descending y ≠ [] := by
    intro h
    have hlength := hperm.length_eq
    rw [h, Vector.length_toList] at hlength
    exact hm.ne hlength
  rw [← leftAbove_simplexShift_start (pairwise_descending y) hne, leftAbove, (hperm.map _).sum_eq,
    toList_eq_ofFn, List.map_ofFn, List.sum_ofFn]
  exact Finset.sum_congr rfl fun i _ ↦ get_projectSimplex y i

/-- A weight that is not cut off exceeds its entry by the same amount as all the others, and one that is
cut off by more. -/
theorem isFoot_projectSimplex (hm : 0 < m) (y : Vector ℝ m) :
    FeasibleSet.simplex.IsFoot y (projectSimplex y) := by
  let θ := simplexShift 0 0 0 (descending y)
  let p := projectSimplex y
  have hsum : ∑ i, p.get i = 1 := sum_projectSimplex hm y
  refine ⟨⟨fun i ↦ ?_, hsum⟩, fun z hz ↦ ?_⟩
  · rw [get_projectSimplex]
    exact le_max_right _ _
  have hterm (i : Fin m) : (y.get i - p.get i - θ) * (z.get i - p.get i) ≤ 0 := by
    rcases le_total (y.get i - θ) 0 with hcut | hkept
    · have hp : p.get i = 0 := (get_projectSimplex y i).trans (max_eq_right hcut)
      rw [hp, sub_zero, sub_zero]
      exact mul_nonpos_of_nonpos_of_nonneg hcut (hz.1 i)
    · have hp : p.get i = y.get i - θ := (get_projectSimplex y i).trans (max_eq_left hkept)
      rw [hp, sub_sub_cancel, sub_self, zero_mul]
  have hshift : ∑ i, θ * (z.get i - p.get i) = 0 := by
    rw [← Finset.mul_sum, Finset.sum_sub_distrib, hz.2, hsum, sub_self, mul_zero]
  calc (y.get - p.get) ⬝ᵥ (z.get - p.get)
      = ∑ i, (y.get i - p.get i - θ) * (z.get i - p.get i) + ∑ i, θ * (z.get i - p.get i) := by
        rw [← Finset.sum_add_distrib]
        exact Finset.sum_congr rfl fun i _ ↦ by
          rw [Pi.sub_apply, Pi.sub_apply]
          ring
    _ ≤ 0 := by
        rw [hshift, add_zero]
        exact Finset.sum_nonpos fun i _ ↦ hterm i

/-! ## Boxes -/

namespace FeasibleSet

/-- The set is not empty: no bound of a box lies beyond the line or above its partner, and the simplex has
a vertex. -/
def IsProper : FeasibleSet ℝ m → Prop
  | box lower upper => ∀ i, lower.get i ≠ .posInf ∧ upper.get i ≠ .negInf ∧
      ¬ (lower.get i).Crosses (upper.get i)
  | simplex => 0 < m

end FeasibleSet

namespace Extended

@[simp] theorem larger_negInf (x : ℝ) : (negInf : Extended ℝ).larger x = x := rfl

@[simp] theorem larger_finite (b x : ℝ) : (finite b).larger x = max x b := Scalar.larger_real x b

@[simp] theorem smaller_finite (b x : ℝ) : (finite b).smaller x = min x b := Scalar.smaller_real x b

@[simp] theorem smaller_posInf (x : ℝ) : (posInf : Extended ℝ).smaller x = x := rfl

theorem not_crosses_finite {a b : ℝ} : ¬ (finite a).Crosses (finite b) ↔ a ≤ b := not_lt

/-- A number that is pushed up to a lower bound and then down to an upper one lies between the two. -/
theorem between_smaller_larger {l u : Extended ℝ} (hl : l ≠ .posInf) (hu : u ≠ .negInf)
    (h : ¬ l.Crosses u) (x : ℝ) :
    l.AtMost (u.smaller (l.larger x)) ∧ u.AtLeast (u.smaller (l.larger x)) := by
  cases l with
  | posInf => exact absurd rfl hl
  | negInf =>
    cases u with
    | negInf => exact absurd rfl hu
    | finite b => simp
    | posInf => simp
  | finite a =>
    cases u with
    | negInf => exact absurd rfl hu
    | finite b => simpa using not_crosses_finite.1 h
    | posInf => simp

/-- It moves only to a bound, and then no number between the two lies before that bound. -/
theorem smaller_larger_cases {l u : Extended ℝ} (hl : l ≠ .posInf) (hu : u ≠ .negInf)
    (h : ¬ l.Crosses u) (x : ℝ) :
    u.smaller (l.larger x) = x ∨
      (x ≤ u.smaller (l.larger x) ∧ ∀ z, l.AtMost z → u.smaller (l.larger x) ≤ z) ∨
      (u.smaller (l.larger x) ≤ x ∧ ∀ z, u.AtLeast z → z ≤ u.smaller (l.larger x)) := by
  cases l with
  | posInf => exact absurd rfl hl
  | negInf =>
    cases u with
    | negInf => exact absurd rfl hu
    | posInf => exact .inl rfl
    | finite b =>
      rcases le_total x b with hxb | hbx
      · exact .inl (by simpa using hxb)
      · exact .inr (.inr (by simp [hbx]))
  | finite a =>
    cases u with
    | negInf => exact absurd rfl hu
    | posInf =>
      rcases le_total x a with hxa | hax
      · exact .inr (.inl (by simp [hxa]))
      · exact .inl (by simpa using hax)
    | finite b =>
      have hab : a ≤ b := not_crosses_finite.1 h
      rcases le_total x a with hxa | hax
      · exact .inr (.inl (by simp [hxa, hab]))
      · rcases le_total x b with hxb | hbx
        · exact .inl (by simp [hax, hxb])
        · exact .inr (.inr (by simp [hax, hbx]))

end Extended

theorem FeasibleSet.get_project_box (lower upper : Vector (Extended ℝ) m) (y : Vector ℝ m) (i : Fin m) :
    ((box lower upper).project y).get i
      = (upper.get i).smaller ((lower.get i).larger (y.get i)) := by
  rw [project, get_ofFn]

theorem FeasibleSet.isFoot_project_box {lower upper : Vector (Extended ℝ) m}
    (hset : (FeasibleSet.box lower upper).IsProper) (y : Vector ℝ m) :
    (FeasibleSet.box lower upper).IsFoot y ((FeasibleSet.box lower upper).project y) := by
  refine ⟨fun i ↦ ?_, fun z hz ↦ Finset.sum_nonpos fun i _ ↦ ?_⟩
  · obtain ⟨hl, hu, hcross⟩ := hset i
    rw [FeasibleSet.get_project_box]
    exact Extended.between_smaller_larger hl hu hcross _
  · obtain ⟨hl, hu, hcross⟩ := hset i
    rw [Pi.sub_apply, Pi.sub_apply, FeasibleSet.get_project_box]
    obtain hkept | ⟨hle, hbeyond⟩ | ⟨hle, hbeyond⟩ :=
      Extended.smaller_larger_cases hl hu hcross (y.get i)
    · rw [hkept, sub_self, zero_mul]
    · exact mul_nonpos_of_nonpos_of_nonneg (sub_nonpos.2 hle) (sub_nonneg.2 (hbeyond _ (hz i).1))
    · exact mul_nonpos_of_nonneg_of_nonpos (sub_nonneg.2 hle) (sub_nonpos.2 (hbeyond _ (hz i).2))

/-! ## Both kinds of sets -/

/-- The projection onto a set that is not empty. -/
theorem FeasibleSet.isFoot_project {set : FeasibleSet ℝ m} (hset : set.IsProper) (y : Vector ℝ m) :
    set.IsFoot y (set.project y) := by
  cases set with
  | box lower upper => exact isFoot_project_box hset y
  | simplex => exact isFoot_projectSimplex hset y

/-- **The projection is the nearest point.**  Over a box that is not empty, and over the simplex, it lies in
the set, and every other point of the set is strictly farther away.  So it leaves the points of the set
where they are, twice is the same as once, and no two points get farther apart. -/
theorem project_is_nearest {set : FeasibleSet ℝ m} (hset : set.IsProper) (y : Vector ℝ m) :
    set.Contains (set.project y) ∧
    (∀ z, set.Contains z → z ≠ set.project y → norm₂ (y - set.project y) < norm₂ (y - z)) ∧
    set.project (set.project y) = set.project y ∧
    (set.Contains y → set.project y = y) ∧
    (∀ x, norm₂ (set.project x - set.project y) ≤ norm₂ (x - y)) := by
  have hfoot (x : Vector ℝ m) : set.IsFoot x (set.project x) := FeasibleSet.isFoot_project hset x
  exact ⟨(hfoot y).contains, fun z hz hne ↦ (hfoot y).norm₂_lt hz hne,
    (hfoot _).eq_of_contains (hfoot y).contains, (hfoot y).eq_of_contains,
    fun x ↦ (hfoot x).norm₂_le (hfoot y)⟩

/-- A strip that is open to the left, and a half line. -/
def corner : FeasibleSet ℝ 2 := .box #v[.negInf, .finite 0] #v[.finite 1, .posInf]

/-- The corner `(1, 0)` is nearer to `(3, −2)` than any other point of the set. -/
theorem project_is_nearest_corner :
    corner.IsProper ∧ (FeasibleSet.simplex : FeasibleSet ℝ 3).IsProper ∧
    (∀ z, corner.Contains z → z ≠ #v[1, 0] →
      norm₂ (#v[3, -2] - #v[1, 0] : Vector ℝ 2) < norm₂ (#v[3, -2] - z)) ∧
    ∀ z, (FeasibleSet.simplex : FeasibleSet ℝ 3).Contains z → z ≠ projectSimplex #v[2, 1 / 2, -1] →
      norm₂ (#v[2, 1 / 2, -1] - projectSimplex #v[2, 1 / 2, -1]) < norm₂ (#v[2, 1 / 2, -1] - z) := by
  have hcorner : corner.IsProper := by
    intro i
    fin_cases i
    · exact ⟨nofun, nofun, nofun⟩
    · exact ⟨nofun, nofun, nofun⟩
  have hsimplex : (FeasibleSet.simplex : FeasibleSet ℝ 3).IsProper := three_pos
  have hproject : corner.project #v[3, -2] = #v[1, 0] := by
    refine ext_get fun i ↦ ?_
    rw [corner, FeasibleSet.get_project_box]
    fin_cases i <;> simp [get_eq]
  refine ⟨hcorner, hsimplex, fun z hz hne ↦ ?_, (project_is_nearest hsimplex _).2.1⟩
  have hlt := (project_is_nearest hcorner #v[3, -2]).2.1 z hz
  rw [hproject] at hlt
  exact hlt hne

end ExactPenalty
