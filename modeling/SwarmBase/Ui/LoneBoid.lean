import SwarmBase.Ui.Boids

/-!
# A boid without neighbours

Alignment and cohesion are finalized only if there is a neighbour. Separation is finalized always:
with no neighbour its desired velocity is zero, and it steers the robot to a halt. So a robot
without neighbours is steered by its goal alone only if it does not move
(`alone_steered_iff`), and every other one has a brake on (`Boids.velocity_move_of_alone`). The
brake does not show in the new velocity if the robot is that fast that the sum is cut to the speed
limit with and without it, and on one line with the goal.
-/

namespace SwarmBase

open Framework

namespace Boids

variable {rs : List (Robot ℝ)} {r : Robot ℝ} {t u v e : Vec ℝ} {x c : ℝ}

/-! ### The brake -/

theorem separation_of_alone (h : near 50 rs r = []) :
    separation (neighbors rs r) r = cut 0.1 (-r.velocity) := by
  have hsep : (neighbors rs r).sep = 0 := by
    -- nor is there one within the separation radius
    rw [neighbors_eq, near_eq_filter (show (20 : ℝ) ≤ 50 by norm_num), h]
    rfl
  unfold separation
  rw [steer_eq, hsep, Vec.normalize_eq, Vec.scale_eq, smul_zero, smul_zero, zero_sub]

/-- A robot without neighbours seeks its goal and brakes. -/
theorem velocity_move_of_alone (h : near 50 rs r = []) (t : Vec ℝ) :
    (move t.x t.y rs r).velocity = cut 4 (r.velocity + (1.2 : ℝ) • seek t.x t.y r +
      (1.5 : ℝ) • cut 0.1 (-r.velocity)) := by
  rw [velocity_move, accel_eq, separation_of_alone h, alignment_of_alone h, cohesion_of_alone h]
  congr 1
  abel

theorem seek_eq (t : Vec ℝ) (r : Robot ℝ) :
    seek t.x t.y r = if t = r.position then 0
      else cut 0.1 ((4 / ‖t - r.position‖) • (t - r.position) - r.velocity) := by
  unfold seek
  dsimp only
  rw [Vec.hypot_sub]
  by_cases hat : t = r.position
  · rw [if_pos hat, hat, sub_self, norm_zero, if_neg (lt_irrefl 0)]
    rfl
  · have hpos : 0 < ‖t - r.position‖ := norm_pos_iff.mpr (sub_ne_zero.mpr hat)
    rw [if_neg hat, if_pos hpos, steer_eq]
    congr 2
    refine Vec.ext ?_ ?_
    · change (t.x - r.position.x) / ‖t - r.position‖ * 4 = _
      rw [Vec.smul_x, Vec.sub_x]
      ring
    · change (t.y - r.position.y) / ‖t - r.position‖ * 4 = _
      rw [Vec.smul_y, Vec.sub_y]
      ring

/-! ### When the brake does not show -/

/-- The force of the brake at speed `x`. -/
noncomputable def brake (x : ℝ) : ℝ := 1.5 * min 0.1 x

theorem brake_pos (hx : 0 < x) : 0 < brake x :=
  mul_pos (by norm_num) (lt_min (by norm_num) hx)

theorem brake_le (x : ℝ) : brake x ≤ 0.15 := by
  have hmin : min 0.1 x ≤ 0.1 := min_le_left _ _
  unfold brake
  linarith

theorem brake_of_fast (hx : 0.1 ≤ x) : brake x = 0.15 := by
  unfold brake
  rw [min_eq_left hx]
  norm_num

theorem cut_neg_smul (he : ‖e‖ = 1) (hx : 0 < x) :
    (1.5 : ℝ) • cut 0.1 (-(x • e)) = -brake x • e := by
  have hclamp : max (-0.1) (min 0.1 (-x)) = -min 0.1 x := by
    rw [min_eq_right (by linarith), max_neg_neg]
  rw [← neg_smul, cut_smul (by norm_num) he, smul_smul, hclamp]
  unfold brake
  rw [mul_neg]

/-- On a line, the brake does not show if the speed limit is exceeded with the brake on. -/
theorem cut_brake_iff (he : ‖e‖ = 1) (hx : 0 < x) (hc : -3 ≤ c) :
    cut 4 (c • e + (1.5 : ℝ) • cut 0.1 (-(x • e))) = cut 4 (c • e) ↔ 4 + brake x ≤ c := by
  have hne : e ≠ 0 := norm_ne_zero_iff.mp (he ▸ one_ne_zero)
  have hpos := brake_pos hx
  have hle := brake_le x
  rw [cut_neg_smul he hx, ← add_smul, cut_smul (by norm_num) he, cut_smul (by norm_num) he,
    (smul_left_injective ℝ hne).eq_iff,
    max_eq_right (le_min (by norm_num) (by linarith)),
    max_eq_right (le_min (by norm_num) (by linarith))]
  -- what is left is about two numbers
  refine ⟨?_, ?_⟩
  · intro heq
    by_contra hlt
    have hbraked : min 4 (c + -brake x) < min 4 c := by
      rw [min_eq_right (by linarith)]
      exact lt_min (by linarith) (by linarith)
    exact hbraked.ne heq
  · intro hge
    rw [min_eq_left (by linarith), min_eq_left (by linarith)]

theorem exists_direction (hv : v ≠ 0) : ∃ e, ‖e‖ = 1 ∧ v = ‖v‖ • e := by
  have hpos : 0 < ‖v‖ := norm_pos_iff.mpr hv
  refine ⟨‖v‖⁻¹ • v, ?_, (smul_inv_smul₀ hpos.ne' v).symm⟩
  rw [norm_smul, norm_inv, norm_norm, inv_mul_cancel₀ hpos.ne']

/-- At the goal. -/
theorem cut_brake_eq_iff (hv : v ≠ 0) :
    cut 4 (v + (1.5 : ℝ) • cut 0.1 (-v)) = cut 4 v ↔ 4.15 ≤ ‖v‖ := by
  have hpos : 0 < ‖v‖ := norm_pos_iff.mpr hv
  obtain ⟨e, he, hve⟩ := exists_direction hv
  generalize ‖v‖ = x at *
  rw [hve, cut_brake_iff he hpos (by linarith)]
  refine ⟨?_, ?_⟩
  · intro h
    rw [brake_of_fast (by linarith [brake_pos hpos])] at h
    linarith
  · intro h
    rw [brake_of_fast (by linarith)]
    linarith

/-- A robot on one line with its goal, ahead of it or behind, seeks the velocity `y • e` with
`y = 4` or `y = -4`. -/
theorem cut_seek_brake_iff {y : ℝ} (he : ‖e‖ = 1) (hx : 0 < x) (hy : |y| = 4) :
    cut 4 (x • e + (1.2 : ℝ) • cut 0.1 (y • e - x • e) + (1.5 : ℝ) • cut 0.1 (-(x • e))) =
      cut 4 (x • e + (1.2 : ℝ) • cut 0.1 (y • e - x • e)) ↔ 4.27 ≤ x := by
  obtain ⟨k, hk⟩ : ∃ k, max (-0.1) (min 0.1 (y - x)) = k := ⟨_, rfl⟩
  have hlow : -0.1 ≤ k := hk ▸ le_max_left _ _
  have hhigh : k ≤ 0.1 := hk ▸ max_le (by norm_num) (min_le_left _ _)
  have hy4 : y ≤ 4 := hy ▸ le_abs_self y
  rw [← sub_smul, cut_smul (by norm_num) he, hk, smul_smul, ← add_smul,
    cut_brake_iff he hx (by linarith)]
  refine ⟨?_, ?_⟩
  · intro h
    have hfast : 0.1 ≤ x := by linarith [brake_pos hx]
    rw [brake_of_fast hfast] at h
    -- faster than `4`, the goal does not ask for more speed
    have hmax : k ≤ max (-0.1) (y - x) := hk ▸ max_le_max_left _ (min_le_right _ _)
    rcases le_max_iff.mp hmax with hslow | hslow
    · linarith
    · linarith
  · intro h
    rw [brake_of_fast (by linarith)]
    have hk' : k = -0.1 := by
      rw [← hk, min_eq_right (by linarith), max_eq_left (by linarith)]
    rw [hk']
    linarith

/-- If the brake does not show, the robot is on one line with its goal. -/
theorem eq_smul_of_cut_brake (hv : v ≠ 0)
    (h : cut 4 (v + (1.2 : ℝ) • cut 0.1 (u - v) + (1.5 : ℝ) • cut 0.1 (-v)) =
      cut 4 (v + (1.2 : ℝ) • cut 0.1 (u - v))) : ∃ k : ℝ, u = k • v := by
  obtain ⟨b, hb, hbrake⟩ := exists_cut_eq_smul (r := 0.1) (by norm_num) (-v)
  obtain ⟨k, hk, hseek⟩ := exists_cut_eq_smul (r := 0.1) (by norm_num) (u - v)
  rw [hbrake, hseek, smul_smul, smul_smul, smul_neg, ← sub_eq_add_neg] at h
  generalize hw : v + (1.2 * k) • (u - v) = w at h
  have hb' : (1.5 * b) • v ≠ 0 := smul_ne_zero (by positivity) hv
  rcases (cut_eq_cut_iff (by norm_num)).mp h with heq | ⟨-, hlong, hray⟩
  · exact absurd (sub_eq_self.mp heq) hb'
  · -- what is left with the brake on is a multiple of `w`, so `w` is one of the brake
    have hw0 : w ≠ 0 := norm_pos_iff.mp (by linarith)
    obtain ⟨m, -, hm⟩ := hray.symm.exists_nonneg_left hw0
    have hwv : (1 - m) • w = (1.5 * b) • v := by
      rw [sub_smul, one_smul, hm, sub_sub_cancel]
    have hm1 : 1 - m ≠ 0 := by
      intro hzero
      rw [hzero, zero_smul] at hwv
      exact hb' hwv.symm
    have hw' : w = ((1 - m)⁻¹ * (1.5 * b)) • v := by
      rw [mul_smul, ← hwv, inv_smul_smul₀ hm1]
    -- and so is the goal
    have hk' : 1.2 * k ≠ 0 := by positivity
    refine ⟨1 + (1.2 * k)⁻¹ * ((1 - m)⁻¹ * (1.5 * b) - 1), ?_⟩
    calc u = v + (1.2 * k)⁻¹ • ((1.2 * k) • (u - v)) := by
          rw [inv_smul_smul₀ hk', add_sub_cancel]
      _ = v + (1.2 * k)⁻¹ • (w - v) := by rw [← hw, add_sub_cancel_left]
      _ = _ := by
          rw [hw']
          module

/-- On the way to the goal, with `u` the velocity it asks for. -/
theorem cut_seek_brake_eq_iff (hv : v ≠ 0) (hu : ‖u‖ = 4) :
    cut 4 (v + (1.2 : ℝ) • cut 0.1 (u - v) + (1.5 : ℝ) • cut 0.1 (-v)) =
        cut 4 (v + (1.2 : ℝ) • cut 0.1 (u - v)) ↔
      (∃ k : ℝ, u = k • v) ∧ 4.27 ≤ ‖v‖ := by
  have hpos : 0 < ‖v‖ := norm_pos_iff.mpr hv
  obtain ⟨e, he, hve⟩ := exists_direction hv
  -- on one line with the velocity everything is a multiple of its direction `e`
  have hline : ∀ k : ℝ, u = k • v →
      (cut 4 (v + (1.2 : ℝ) • cut 0.1 (u - v) + (1.5 : ℝ) • cut 0.1 (-v)) =
        cut 4 (v + (1.2 : ℝ) • cut 0.1 (u - v)) ↔ 4.27 ≤ ‖v‖) := by
    intro k hk
    have hy : |k * ‖v‖| = 4 := by
      rw [abs_mul, abs_norm, ← Real.norm_eq_abs, ← norm_smul, ← hk, hu]
    have hue : u = (k * ‖v‖) • e := by rw [mul_smul, ← hve, hk]
    generalize ‖v‖ = x at *
    rw [hue, hve]
    exact cut_seek_brake_iff he hpos hy
  refine ⟨?_, ?_⟩
  · intro h
    obtain ⟨k, hk⟩ := eq_smul_of_cut_brake hv h
    exact ⟨⟨k, hk⟩, (hline k hk).mp h⟩
  · rintro ⟨⟨k, hk⟩, hfast⟩
    exact (hline k hk).mpr hfast

/-- Multiples in the plane. -/
theorem exists_eq_smul_iff (hv : v ≠ 0) (a : Vec ℝ) :
    (∃ k : ℝ, a = k • v) ↔ a.x * v.y = a.y * v.x := by
  refine ⟨?_, ?_⟩
  · rintro ⟨k, rfl⟩
    rw [Vec.smul_x, Vec.smul_y]
    ring
  · intro hcross
    have hsq : v.x ^ 2 + v.y ^ 2 ≠ 0 := by
      intro hzero
      refine hv (Vec.ext ?_ ?_)
      · exact pow_eq_zero_iff two_ne_zero |>.mp (by nlinarith [sq_nonneg v.x, sq_nonneg v.y])
      · exact pow_eq_zero_iff two_ne_zero |>.mp (by nlinarith [sq_nonneg v.x, sq_nonneg v.y])
    -- the coefficient of the projection of `a` onto `v`
    refine ⟨(a.x * v.x + a.y * v.y) / (v.x ^ 2 + v.y ^ 2), Vec.ext ?_ ?_⟩
    · rw [Vec.smul_x, div_mul_eq_mul_div, eq_div_iff hsq]
      linear_combination v.y * hcross
    · rw [Vec.smul_y, div_mul_eq_mul_div, eq_div_iff hsq]
      linear_combination -v.x * hcross

/-- **When the brake does not show.** -/
theorem brake_hidden_iff (t : Vec ℝ) (r : Robot ℝ) :
    cut 4 (r.velocity + (1.2 : ℝ) • seek t.x t.y r + (1.5 : ℝ) • cut 0.1 (-r.velocity)) =
        cut 4 (r.velocity + (1.2 : ℝ) • seek t.x t.y r) ↔
      r.velocity = 0 ∨ (t = r.position ∧ 4.15 ≤ ‖r.velocity‖) ∨
        ((t.x - r.position.x) * r.velocity.y = (t.y - r.position.y) * r.velocity.x ∧
          4.27 ≤ ‖r.velocity‖) := by
  by_cases hv : r.velocity = 0
  · rw [hv, neg_zero, cut_zero (by norm_num), smul_zero, add_zero]
    exact iff_of_true rfl (Or.inl rfl)
  rw [or_iff_right hv, seek_eq]
  -- at the goal there is no seek, and the brake alone counts
  by_cases hat : t = r.position
  · rw [if_pos hat, smul_zero, add_zero, cut_brake_eq_iff hv]
    refine ⟨?_, ?_⟩
    · exact fun h => Or.inl ⟨hat, h⟩
    · rintro (⟨-, h⟩ | ⟨-, h⟩) <;> linarith
  · rw [if_neg hat, or_iff_right fun h => hat h.1]
    have hdist : ‖t - r.position‖ ≠ 0 := norm_ne_zero_iff.mpr (sub_ne_zero.mpr hat)
    have hnorm : ‖(4 / ‖t - r.position‖) • (t - r.position)‖ = 4 := by
      rw [norm_smul, norm_div, norm_norm, div_mul_cancel₀ _ hdist]
      norm_num
    rw [cut_seek_brake_eq_iff hv hnorm, exists_eq_smul_iff hv, Vec.smul_x, Vec.smul_y, Vec.sub_x,
      Vec.sub_y, mul_assoc, mul_assoc, mul_right_inj' (div_ne_zero four_ne_zero hdist)]

end Boids

/-! ### What steers a robot without neighbours -/

/-- The three rules that need neighbours contribute nothing. -/
def Boids.NoFlocking (rs : List (Robot ℝ)) (r : Robot ℝ) : Prop :=
  Boids.separation (Boids.neighbors rs r) r = Vec.zero ∧
    Boids.alignment (Boids.neighbors rs r) r = Vec.zero ∧
    Boids.cohesion (Boids.neighbors rs r) r = Vec.zero

theorem Boids.noFlocking_iff {rs : List (Robot ℝ)} {r : Robot ℝ} (h : near 50 rs r = []) :
    Boids.NoFlocking rs r ↔ r.velocity = 0 := by
  unfold NoFlocking
  rw [separation_of_alone h, alignment_of_alone h, cohesion_of_alone h, Vec.zero_eq]
  simp only [and_self, and_true, cut_eq_zero_iff (r := (0.1 : ℝ)) (by norm_num), neg_eq_zero]

theorem near_eq_nil {rs : List (Robot ℝ)} {r : Robot ℝ}
    (halone : ∀ o ∈ rs, o.id ≠ r.id → ¬ (o.position.sub r.position).norm < Boids.visionRadius) :
    near 50 rs r = [] := by
  refine List.filter_eq_nil_iff.mpr fun o ho => ?_
  rw [decide_eq_true_iff, not_and]
  exact halone o ho

/-- **What steers a boid that no other robot is near.** For every list of robots, every robot in
it that has no robot of another id within the vision radius, and every target: its goal is all
that steers it exactly if it is at rest. Its new velocity is the one its goal alone would give it
if it is at rest, if it crosses its goal at `4.15` px a tick or more, or if it is on one line with
its goal and makes `4.27` px a tick or more. -/
theorem alone_steered_iff {rs : List (Robot ℝ)} {i : ℕ} {r : Robot ℝ} (hr : rs[i]? = some r)
    (halone : ∀ o ∈ rs, o.id ≠ r.id → ¬ (o.position.sub r.position).norm < Boids.visionRadius)
    (t : Vec ℝ) :
    ∃ rs' r', moveToBoids t.x t.y (.list rs) = some (.list rs') ∧ rs'[i]? = some r' ∧
      ((r'.velocity = (r.velocity.add ((Boids.seek t.x t.y r).scale 1.2)).limit 4 ∧
          Boids.NoFlocking rs r) ↔ r.velocity = Vec.zero) ∧
      (r'.velocity = (r.velocity.add ((Boids.seek t.x t.y r).scale 1.2)).limit 4 ↔
        r.velocity = Vec.zero ∨ (t = r.position ∧ 4.15 ≤ r.velocity.norm) ∨
          ((t.x - r.position.x) * r.velocity.y = (t.y - r.position.y) * r.velocity.x ∧
            4.27 ≤ r.velocity.norm)) := by
  have hnear : near 50 rs r = [] := near_eq_nil halone
  refine ⟨_, Boids.move t.x t.y rs r, rfl, ?_, ?_⟩
  · rw [List.getElem?_map, hr]
    rfl
  rw [Boids.velocity_move_of_alone hnear, Boids.noFlocking_iff hnear, Vec.limit_eq, Vec.add_eq,
    Vec.scale_eq, Vec.norm_eq, Vec.zero_eq, Boids.brake_hidden_iff]
  refine ⟨?_, Iff.rfl⟩
  exact ⟨fun h => h.2, fun h => ⟨Or.inl h, h⟩⟩

/-- Robot `0`, with the only other one `100` px away. -/
theorem far_newRobot {r : Robot ℝ} (hid : r.id = 0) (hat : r.position = ⟨100, 0⟩) :
    ∀ o ∈ [r, newRobot 1], o.id ≠ r.id →
      ¬ (o.position.sub r.position).norm < Boids.visionRadius := by
  intro o ho hne
  have hdist : ((newRobot (K := ℝ) 1).position.sub r.position).norm = 100 := by
    rw [hat]
    change √((0 - 100) ^ 2 + (0 - 0) ^ 2) = 100
    rw [sub_self, zero_sub, zero_pow two_ne_zero, add_zero, neg_sq]
    exact Real.sqrt_sq (by norm_num)
  rcases List.mem_pair.mp ho with rfl | rfl
  · exact absurd rfl hne
  · rw [hdist]
    change ¬ (100 : ℝ) < 50
    norm_num

/-- A robot at rest, `100` px from another. -/
theorem alone_steered_rest :
    let r : Robot ℝ := ⟨0, ⟨100, 0⟩, ⟨0, 0⟩⟩
    ∃ (rs' : List (Robot ℝ)) (r' : Robot ℝ),
      moveToBoids 3 4 (.list [r, newRobot 1]) = some (.list rs') ∧ rs'[0]? = some r' ∧
      r'.velocity = (Vec.zero.add ((Boids.seek 3 4 r).scale 1.2)).limit 4 ∧
      Boids.NoFlocking [r, newRobot 1] r := by
  intro r
  have hr : [r, newRobot 1][0]? = some r := rfl
  obtain ⟨rs', r', hmove, hr', hiff, -⟩ := alone_steered_iff hr (far_newRobot rfl rfl) ⟨3, 4⟩
  exact ⟨rs', r', hmove, hr', hiff.mpr rfl⟩

/-- A robot that moves at `1` px a tick, with the only other one `100` px away. -/
theorem alone_brakes :
    ¬ ∀ (rs : List (Robot ℝ)) (i : ℕ) (r : Robot ℝ) (t : Vec ℝ), rs[i]? = some r →
      (∀ o ∈ rs, o.id ≠ r.id → ¬ (o.position.sub r.position).norm < Boids.visionRadius) →
      ∃ rs' r', moveToBoids t.x t.y (.list rs) = some (.list rs') ∧ rs'[i]? = some r' ∧
        r'.velocity = (r.velocity.add ((Boids.seek t.x t.y r).scale 1.2)).limit 4 ∧
        Boids.NoFlocking rs r := by
  intro h
  let r : Robot ℝ := ⟨0, ⟨100, 0⟩, ⟨1, 0⟩⟩
  have halone : ∀ o ∈ [r, newRobot 1], o.id ≠ r.id →
      ¬ (o.position.sub r.position).norm < Boids.visionRadius := far_newRobot rfl rfl
  have hspeed : ‖r.velocity‖ = 1 := by
    rw [← Vec.norm_eq]
    change √(1 ^ 2 + 0 ^ 2) = 1
    rw [zero_pow two_ne_zero, add_zero, one_pow, Real.sqrt_one]
  obtain ⟨rs', r', hmove, hr', hvel, -⟩ := h [r, newRobot 1] 0 r 0 rfl halone
  obtain rfl := RobotsState.list.inj (Option.some.inj hmove)
  obtain rfl := Option.some.inj hr'
  rw [Boids.velocity_move_of_alone (near_eq_nil halone), Vec.limit_eq, Vec.add_eq, Vec.scale_eq,
    Boids.brake_hidden_iff, hspeed] at hvel
  rcases hvel with hrest | ⟨-, hfast⟩ | ⟨-, hfast⟩
  · exact one_ne_zero (congrArg Vec.x hrest)
  · norm_num at hfast
  · norm_num at hfast

end SwarmBase
