import Mathlib.Analysis.InnerProductSpace.Basic
import Mathlib.Analysis.Normed.Operator.LinearIsometry
import Mathlib.Analysis.Normed.Module.Ray

/-!
# The lengths of vectors

`cut r v` is `v` if it is no longer than `r`, and the vector of length `r` in its direction
otherwise: the point of the ball of radius `r` nearest to `v`. Cutting does not take a vector away
from any point of the ball (`norm_cut_sub_le`), nor two vectors away from each other
(`norm_cut_sub_cut_le`), and two vectors are cut to the same one only if they are equal, or too long
both and on one ray (`cut_eq_cut_iff`).

A sum of vectors is at most as long as they are together (`norm_list_sum_le`), exactly that long if
they are on one ray (`norm_list_sum_of_sameRay`), and at least as long as one of them exceeds the
others (`two_mul_norm_sub_le`).
-/

namespace Framework

variable {E : Type} [NormedAddCommGroup E] [InnerProductSpace ℝ E] {r : ℝ} {v w : E}

/-- A vector is as long as it is, also if it is zero. -/
theorem norm_div_norm_smul (v : E) : (‖v‖ / ‖v‖) • v = v := by
  rcases eq_or_ne v 0 with rfl | hv
  · exact smul_zero _
  · rw [div_self (norm_ne_zero_iff.mpr hv), one_smul]

/-- The vector, cut to length `r`. -/
noncomputable def cut (r : ℝ) (v : E) : E := if r < ‖v‖ then (r / ‖v‖) • v else v

theorem cut_of_le (h : ‖v‖ ≤ r) : cut r v = v := if_neg (not_lt.mpr h)

theorem cut_of_ge (hr : 0 < r) (h : r ≤ ‖v‖) : cut r v = (r / ‖v‖) • v := by
  rcases h.lt_or_eq with hlt | heq
  · exact if_pos hlt
  · rw [cut_of_le heq.ge, heq, div_self (heq ▸ hr.ne'), one_smul]

theorem norm_cut_of_ge (hr : 0 < r) (h : r ≤ ‖v‖) : ‖cut r v‖ = r := by
  have hv : 0 < ‖v‖ := hr.trans_le h
  rw [cut_of_ge hr h, norm_smul, Real.norm_of_nonneg (by positivity), div_mul_cancel₀ r hv.ne']

/-- A vector that is too long is a multiple of what it is cut to. -/
theorem eq_smul_cut (hr : 0 < r) (h : r ≤ ‖v‖) : v = (‖v‖ / r) • cut r v := by
  have hv : ‖v‖ ≠ 0 := (hr.trans_le h).ne'
  rw [cut_of_ge hr h, smul_smul, div_mul_div_cancel₀ hr.ne', div_self hv, one_smul]

/-- What a vector is cut to points in its direction. -/
theorem exists_cut_eq_smul (hr : 0 < r) (v : E) : ∃ k : ℝ, 0 < k ∧ cut r v = k • v := by
  rcases le_total ‖v‖ r with hle | hge
  · exact ⟨1, one_pos, (cut_of_le hle).trans (one_smul ℝ v).symm⟩
  · exact ⟨r / ‖v‖, div_pos hr (hr.trans_le hge), cut_of_ge hr hge⟩

theorem norm_cut_le (hr : 0 < r) (v : E) : ‖cut r v‖ ≤ r := by
  rcases le_total ‖v‖ r with hle | hge
  · rwa [cut_of_le hle]
  · exact (norm_cut_of_ge hr hge).le

theorem cut_zero (hr : 0 < r) : cut r (0 : E) = 0 := cut_of_le (norm_zero.trans_le hr.le)

theorem cut_eq_zero_iff (hr : 0 < r) : cut r v = 0 ↔ v = 0 := by
  refine ⟨?_, ?_⟩
  · intro h
    rcases le_total ‖v‖ r with hle | hge
    · rwa [cut_of_le hle] at h
    · have hnorm := norm_cut_of_ge hr hge
      rw [h, norm_zero] at hnorm
      exact absurd hnorm hr.ne
  · rintro rfl
    exact cut_zero hr

/-- Cutting only depends on lengths. -/
theorem map_cut {F : Type} [NormedAddCommGroup F] [InnerProductSpace ℝ F] (f : E →ₗᵢ[ℝ] F) (r : ℝ)
    (v : E) : f (cut r v) = cut r (f v) := by
  unfold cut
  rw [f.norm_map]
  split_ifs
  · exact f.map_smul _ v
  · rfl

/-- On a line through the origin, cutting is clamping to an interval. -/
theorem cut_smul (hr : 0 < r) {u : E} (hu : ‖u‖ = 1) (c : ℝ) :
    cut r (c • u) = max (-r) (min r c) • u := by
  have hnorm : ‖c • u‖ = |c| := by rw [norm_smul, hu, mul_one, Real.norm_eq_abs]
  rcases le_total |c| r with hle | hge
  · obtain ⟨hlow, hhigh⟩ := abs_le.mp hle
    rw [cut_of_le (hnorm.trans_le hle), min_eq_right hhigh, max_eq_right hlow]
  · have hc : 0 < |c| := hr.trans_le hge
    rw [cut_of_ge hr (hge.trans_eq hnorm.symm), hnorm, smul_smul]
    congr 1
    rcases le_abs.mp hge with hpos | hneg
    · have habs : |c| = c := abs_of_nonneg (hr.le.trans hpos)
      rw [min_eq_left hpos, max_eq_right (by linarith), habs, div_mul_cancel₀ r (habs ▸ hc.ne')]
    · have habs : |c| = -c := abs_of_nonpos (by linarith)
      rw [min_eq_right (by linarith), max_eq_left (by linarith), habs, div_mul_eq_mul_div,
        div_eq_iff (habs ▸ hc.ne')]
      ring

/-- Cutting is a projection onto the ball: it does not lead away from any point of it. -/
theorem norm_cut_sub_le (hr : 0 < r) (hv : ‖v‖ ≤ r) (w : E) : ‖cut r w - v‖ ≤ ‖w - v‖ := by
  rcases le_total ‖w‖ r with hle | hge
  · rw [cut_of_le hle]
  · have hw : 0 < ‖w‖ := hr.trans_le hge
    have hscale : r / ‖w‖ * ‖w‖ = r := div_mul_cancel₀ r hw.ne'
    have hone : r / ‖w‖ ≤ 1 := (div_le_one hw).mpr hge
    have hinner : inner ℝ w v ≤ ‖w‖ * r :=
      (real_inner_le_norm w v).trans (mul_le_mul_of_nonneg_left hv hw.le)
    have hsq : ‖cut r w - v‖ ^ 2 ≤ ‖w - v‖ ^ 2 := by
      rw [cut_of_ge hr hge, norm_sub_sq_real, norm_sub_sq_real, norm_smul, real_inner_smul_left,
        Real.norm_of_nonneg (by positivity), hscale]
      -- what is cut off weighs more than what the inner product gains
      have hcut : (1 - r / ‖w‖) * inner ℝ w v ≤ (1 - r / ‖w‖) * (‖w‖ * r) :=
        mul_le_mul_of_nonneg_left hinner (sub_nonneg.mpr hone)
      nlinarith [sq_nonneg (‖w‖ - r)]
    exact (sq_le_sq₀ (norm_nonneg _) (norm_nonneg _)).mp hsq

/-- Cutting does not lead two vectors apart. -/
theorem norm_cut_sub_cut_le (hr : 0 < r) (v w : E) : ‖cut r v - cut r w‖ ≤ ‖v - w‖ := by
  rcases le_total ‖v‖ r with hv | hv
  · calc ‖cut r v - cut r w‖ = ‖cut r w - v‖ := by rw [cut_of_le hv, norm_sub_rev]
      _ ≤ ‖w - v‖ := norm_cut_sub_le hr hv w
      _ = ‖v - w‖ := norm_sub_rev w v
  rcases le_total ‖w‖ r with hw | hw
  · rw [cut_of_le hw]
    exact norm_cut_sub_le hr hw v
  · -- both are cut to length `r`, and the angle between them stays
    have hv' : 0 < ‖v‖ := hr.trans_le hv
    have hw' : 0 < ‖w‖ := hr.trans_le hw
    have hinner : inner ℝ (cut r v) (cut r w) = r ^ 2 / (‖v‖ * ‖w‖) * inner ℝ v w := by
      rw [cut_of_ge hr hv, cut_of_ge hr hw, real_inner_smul_left, real_inner_smul_right]
      field_simp
    have hangle : inner ℝ v w ≤ ‖v‖ * ‖w‖ := real_inner_le_norm v w
    have hratio : r ^ 2 / (‖v‖ * ‖w‖) ≤ 1 := by
      rw [div_le_one (by positivity), sq]
      exact mul_le_mul hv hw hr.le hv'.le
    have hcut : (1 - r ^ 2 / (‖v‖ * ‖w‖)) * inner ℝ v w ≤
        (1 - r ^ 2 / (‖v‖ * ‖w‖)) * (‖v‖ * ‖w‖) :=
      mul_le_mul_of_nonneg_left hangle (sub_nonneg.mpr hratio)
    have hscale : r ^ 2 / (‖v‖ * ‖w‖) * (‖v‖ * ‖w‖) = r ^ 2 :=
      div_mul_cancel₀ _ (by positivity)
    have hsq : ‖cut r v - cut r w‖ ^ 2 ≤ ‖v - w‖ ^ 2 := by
      rw [norm_sub_sq_real, norm_sub_sq_real, norm_cut_of_ge hr hv, norm_cut_of_ge hr hw, hinner]
      nlinarith [sq_nonneg (‖v‖ - ‖w‖)]
    exact (sq_le_sq₀ (norm_nonneg _) (norm_nonneg _)).mp hsq

/-- When two vectors are cut to the same one. -/
theorem cut_eq_cut_iff (hr : 0 < r) :
    cut r v = cut r w ↔ v = w ∨ (r ≤ ‖v‖ ∧ r ≤ ‖w‖ ∧ SameRay ℝ v w) := by
  refine ⟨?_, ?_⟩
  · intro h
    rcases le_total r ‖v‖ with hv | hv
    · -- the other one is cut to length `r` too
      have hw : r ≤ ‖w‖ := by
        by_contra hlt
        have hnorm := norm_cut_of_ge hr hv
        rw [h, cut_of_le (not_le.mp hlt).le] at hnorm
        exact hlt hnorm.ge
      refine Or.inr ⟨hv, hw, ?_⟩
      rw [eq_smul_cut hr hv, eq_smul_cut hr hw, h]
      exact sameRay_smul_smul_of_mul_nonneg (by positivity)
    · rw [cut_of_le hv] at h
      rcases le_total ‖w‖ r with hw | hw
      · exact Or.inl (h.trans (cut_of_le hw))
      · have hnorm : ‖v‖ = r := h ▸ norm_cut_of_ge hr hw
        refine Or.inr ⟨hnorm.ge, hw, ?_⟩
        rw [h, cut_of_ge hr hw]
        exact SameRay.sameRay_pos_smul_left w (div_pos hr (hr.trans_le hw))
  · rintro (rfl | ⟨hv, hw, hray⟩)
    · rfl
    · have hv' : ‖v‖ ≠ 0 := (hr.trans_le hv).ne'
      have hw' : ‖w‖ ≠ 0 := (hr.trans_le hw).ne'
      rw [sameRay_iff_norm_smul_eq] at hray
      rw [cut_of_ge hr hv, cut_of_ge hr hw]
      calc (r / ‖v‖) • v = (r / (‖v‖ * ‖w‖)) • (‖w‖ • v) := by
            rw [smul_smul]
            congr 1
            field_simp
        _ = (r / (‖v‖ * ‖w‖)) • (‖v‖ • w) := by rw [hray]
        _ = (r / ‖w‖) • w := by
            rw [smul_smul]
            congr 1
            field_simp

/-! ### Sums -/

variable {l : List E} {u : E}

omit [InnerProductSpace ℝ E] in
theorem norm_list_sum_le (l : List E) : ‖l.sum‖ ≤ (l.map fun v => ‖v‖).sum := by
  simpa using norm_multiset_sum_le (l : Multiset E)

/-- Vectors on one ray add up as their lengths do. -/
theorem norm_list_sum_of_sameRay (hu : u ≠ 0) (h : ∀ v ∈ l, SameRay ℝ u v) :
    ‖l.sum‖ = (l.map fun v => ‖v‖).sum := by
  have hray : SameRay ℝ u l.sum ∧ ‖l.sum‖ = (l.map fun v => ‖v‖).sum := by
    induction l with
    | nil => exact ⟨.zero_right u, norm_zero⟩
    | cons v l ih =>
      obtain ⟨hrest, hnorm⟩ := ih fun w hw => h w (List.mem_cons_of_mem v hw)
      have hv : SameRay ℝ u v := h v List.mem_cons_self
      have hboth : SameRay ℝ v l.sum := hv.symm.trans hrest fun hzero => absurd hzero hu
      rw [List.sum_cons, List.map_cons, List.sum_cons, hboth.norm_add, hnorm]
      exact ⟨hv.add_right hrest, rfl⟩
  exact hray.2

omit [InnerProductSpace ℝ E] in
/-- The others can take away from a vector at most what they are long. -/
theorem two_mul_norm_sub_le (hv : v ∈ l) : 2 * ‖v‖ - (l.map fun w => ‖w‖).sum ≤ ‖l.sum‖ := by
  obtain ⟨before, after, rfl⟩ := List.append_of_mem hv
  have hothers : ‖before.sum + after.sum‖ ≤
      (before.map fun w => ‖w‖).sum + (after.map fun w => ‖w‖).sum :=
    (norm_add_le _ _).trans (add_le_add (norm_list_sum_le before) (norm_list_sum_le after))
  have hsum : (before ++ v :: after).sum = v + (before.sum + after.sum) := by
    rw [List.sum_append, List.sum_cons, add_left_comm]
  have hle : ‖v‖ - ‖before.sum + after.sum‖ ≤ ‖(before ++ v :: after).sum‖ := by
    rw [hsum]
    exact norm_sub_le_norm_add _ _
  rw [List.map_append, List.map_cons, List.sum_append, List.sum_cons]
  linarith

end Framework
