import SwarmBase.Ui.Neighbors
import SwarmBase.Ui.Coincident

/-!
# The steering of a Boids tick

A tick adds four steering terms to the velocity of a robot, each of them cut to `maxForce` and
weighted, and cuts the sum to `maxSpeed`.

* `boids_speed_bounded` — robots that are within the speed limit stay within it, and change their
  velocity by at most `0.47` in a tick, which is `0.1` times the sum of the weights.
-/

namespace SwarmBase

open Framework

namespace Boids

variable {rs : List (Robot ℝ)} {r : Robot ℝ} {t v : Vec ℝ}

/-! ### The steering terms -/

theorem steer_eq (desired : Vec ℝ) (r : Robot ℝ) :
    steer desired r = cut 0.1 (desired - r.velocity) :=
  Vec.limit_eq _ _

theorem norm_steer_le (desired : Vec ℝ) (r : Robot ℝ) : ‖steer desired r‖ ≤ 0.1 := by
  rw [steer_eq]
  exact norm_cut_le (by norm_num) _

/-- Every term is a steering, or zero. -/
theorem norm_seek_le (cx cy : ℝ) (r : Robot ℝ) : ‖seek cx cy r‖ ≤ 0.1 := by
  unfold seek
  dsimp only
  split_ifs
  · exact norm_steer_le _ r
  · rw [Vec.zero_eq, norm_zero]
    norm_num

theorem norm_separation_le (n : Neighbors ℝ) (r : Robot ℝ) : ‖separation n r‖ ≤ 0.1 :=
  norm_steer_le _ r

/-- Without neighbours the sums that alignment and cohesion are left with are empty. -/
theorem alignment_of_alone (h : near 50 rs r = []) : alignment (neighbors rs r) r = 0 := by
  rw [neighbors_eq, h]
  rfl

theorem cohesion_of_alone (h : near 50 rs r = []) : cohesion (neighbors rs r) r = 0 := by
  rw [neighbors_eq, h]
  rfl

theorem norm_alignment_le (rs : List (Robot ℝ)) (r : Robot ℝ) :
    ‖alignment (neighbors rs r) r‖ ≤ 0.1 := by
  by_cases h : near 50 rs r = []
  · rw [alignment_of_alone h, norm_zero]
    norm_num
  · have hcount : 0 < (neighbors rs r).countAlign := by
      rw [neighbors_eq]
      exact List.length_pos_iff.mpr h
    unfold alignment
    rw [if_pos hcount]
    exact norm_steer_le _ r

theorem norm_cohesion_le (rs : List (Robot ℝ)) (r : Robot ℝ) :
    ‖cohesion (neighbors rs r) r‖ ≤ 0.1 := by
  by_cases h : near 50 rs r = []
  · rw [cohesion_of_alone h, norm_zero]
    norm_num
  · have hcount : 0 < (neighbors rs r).countCoh := by
      rw [neighbors_eq]
      exact List.length_pos_iff.mpr h
    unfold cohesion
    rw [if_pos hcount]
    exact norm_steer_le _ r

theorem accel_eq (cx cy : ℝ) (rs : List (Robot ℝ)) (r : Robot ℝ) :
    accel cx cy rs r = (1.5 : ℝ) • separation (neighbors rs r) r + alignment (neighbors rs r) r +
      cohesion (neighbors rs r) r + (1.2 : ℝ) • seek cx cy r := by
  have hone : (1.0 : ℝ) = 1 := by norm_num
  refine Vec.ext ?_ ?_
  · change _ * (1.5 : ℝ) + _ * (1.0 : ℝ) + _ * (1.0 : ℝ) + _ * (1.2 : ℝ) = _
    simp only [Vec.add_x, Vec.smul_x, hone]
    ring
  · change _ * (1.5 : ℝ) + _ * (1.0 : ℝ) + _ * (1.0 : ℝ) + _ * (1.2 : ℝ) = _
    simp only [Vec.add_y, Vec.smul_y, hone]
    ring

theorem norm_accel_le (cx cy : ℝ) (rs : List (Robot ℝ)) (r : Robot ℝ) :
    ‖accel cx cy rs r‖ ≤ 0.47 := by
  have hsep := norm_separation_le (neighbors rs r) r
  have halign := norm_alignment_le rs r
  have hcoh := norm_cohesion_le rs r
  have hseek := norm_seek_le cx cy r
  rw [accel_eq]
  calc ‖(1.5 : ℝ) • separation (neighbors rs r) r + alignment (neighbors rs r) r +
          cohesion (neighbors rs r) r + (1.2 : ℝ) • seek cx cy r‖
      ≤ ‖(1.5 : ℝ) • separation (neighbors rs r) r‖ + ‖alignment (neighbors rs r) r‖ +
          ‖cohesion (neighbors rs r) r‖ + ‖(1.2 : ℝ) • seek cx cy r‖ := norm_add₄_le
    _ = 1.5 * ‖separation (neighbors rs r) r‖ + ‖alignment (neighbors rs r) r‖ +
          ‖cohesion (neighbors rs r) r‖ + 1.2 * ‖seek cx cy r‖ := by
        rw [norm_smul, norm_smul, Real.norm_of_nonneg (by norm_num),
          Real.norm_of_nonneg (by norm_num)]
    _ ≤ 0.47 := by linarith

/-! ### What the updater makes of a robot -/

theorem velocity_move (cx cy : ℝ) (rs : List (Robot ℝ)) (r : Robot ℝ) :
    (move cx cy rs r).velocity = cut 4 (r.velocity + accel cx cy rs r) :=
  Vec.limit_eq _ _

theorem position_move (cx cy : ℝ) (rs : List (Robot ℝ)) (r : Robot ℝ) :
    (move cx cy rs r).position = r.position + (move cx cy rs r).velocity := rfl

theorem norm_velocity_move_le (cx cy : ℝ) (rs : List (Robot ℝ)) (r : Robot ℝ) :
    ‖(move cx cy rs r).velocity‖ ≤ 4 := by
  rw [velocity_move]
  exact norm_cut_le (by norm_num) _

/-- Cutting to the speed limit does not lead away from a velocity that keeps to it. -/
theorem norm_velocity_move_sub_le (cx cy : ℝ) (rs : List (Robot ℝ)) (hr : ‖r.velocity‖ ≤ 4) :
    ‖(move cx cy rs r).velocity - r.velocity‖ ≤ 0.47 := by
  rw [velocity_move]
  calc ‖cut 4 (r.velocity + accel cx cy rs r) - r.velocity‖
      ≤ ‖r.velocity + accel cx cy rs r - r.velocity‖ := norm_cut_sub_le (by norm_num) hr _
    _ = ‖accel cx cy rs r‖ := by rw [add_sub_cancel_left]
    _ ≤ 0.47 := norm_accel_le cx cy rs r

end Boids

/-! ### The speed limit -/

/-- A robot within the speed limit, and what a Boids tick makes of it. -/
structure MovedSmoothly (r r' : Robot ℝ) : Prop where
  id : r'.id = r.id
  velocity : r'.velocity.norm ≤ 4
  position : r'.position = r.position.add r'.velocity
  change : (r'.velocity.sub r.velocity).norm ≤ 0.47

theorem Boids.movedSmoothly (cx cy : ℝ) (rs : List (Robot ℝ)) {r : Robot ℝ}
    (hr : r.velocity.norm ≤ 4) : MovedSmoothly r (move cx cy rs r) where
  id := rfl
  velocity := by
    rw [Vec.norm_eq]
    exact norm_velocity_move_le cx cy rs r
  position := rfl
  change := by
    rw [Vec.norm_eq] at hr ⊢
    exact norm_velocity_move_sub_le cx cy rs hr

/-- **One registration or tick** keeps every robot within the speed limit. -/
theorem norm_velocity_apply_le {rs : List (Robot ℝ)} (h : ∀ r ∈ rs, r.velocity.norm ≤ 4)
    (a : SwarmAction ℝ) : ∀ r ∈ a.apply rs, r.velocity.norm ≤ 4 := by
  cases a with
  | register =>
    intro r hr
    rcases List.mem_append.mp hr with hr | hr
    · exact h r hr
    · -- a new robot is at rest
      obtain rfl := List.mem_singleton.mp hr
      rw [Vec.norm_eq]
      change ‖(0 : Vec ℝ)‖ ≤ 4
      rw [norm_zero]
      norm_num
  | boids t =>
    intro r hr
    obtain ⟨r₀, -, rfl⟩ := List.mem_map.mp hr
    rw [Vec.norm_eq]
    exact Boids.norm_velocity_move_le t.x t.y rs r₀
  | potential t =>
    -- the velocities are left as they are
    intro r hr
    obtain ⟨r₀, hr₀, rfl⟩ := List.mem_map.mp hr
    exact h r₀ hr₀

theorem norm_velocity_swarm_le (as : List (SwarmAction ℝ)) :
    ∀ r ∈ swarm as, r.velocity.norm ≤ 4 := by
  induction as using List.reverseRecOn with
  | nil => exact nofun
  | append_singleton as a ih =>
    rw [swarm_concat]
    exact norm_velocity_apply_le ih a

/-- A robot moves by its new velocity in a Boids tick, and stays in a registration. -/
theorem norm_displacement_apply_le {rs : List (Robot ℝ)} {a : SwarmAction ℝ}
    (ha : ∀ t, a ≠ .potential t) {i : ℕ} {r r' : Robot ℝ} (hr : rs[i]? = some r)
    (hr' : (a.apply rs)[i]? = some r') : (r'.position.sub r.position).norm ≤ 4 := by
  rw [Vec.norm_eq, Vec.sub_eq]
  cases a with
  | register =>
    have hi : i < rs.length := (List.getElem?_eq_some_iff.mp hr).1
    change (rs ++ [newRobot rs.length])[i]? = some r' at hr'
    rw [List.getElem?_append_left hi, hr] at hr'
    obtain rfl := Option.some.inj hr'
    rw [sub_self, norm_zero]
    norm_num
  | boids t =>
    change (rs.map (Boids.move t.x t.y rs))[i]? = some r' at hr'
    rw [List.getElem?_map, hr] at hr'
    obtain rfl := Option.some.inj hr'
    rw [Boids.position_move, add_sub_cancel_left]
    exact Boids.norm_velocity_move_le t.x t.y rs r
  | potential t => exact absurd rfl (ha t)

/-- **Boids motion is bounded and smooth.** A tick on a list of any length whose robots are within
the speed limit keeps them within it, moves each by its new velocity, and changes no velocity by
more than `0.47`. So in every run no robot moves more than `4` px in a registration or a Boids
tick. -/
theorem boids_speed_bounded :
    (∀ (rs : List (Robot ℝ)) (t : Vec ℝ), (∀ r ∈ rs, r.velocity.norm ≤ 4) →
      ∃ rs', moveToBoids t.x t.y (.list rs) = some (.list rs') ∧
        List.Forall₂ MovedSmoothly rs rs') ∧
    (∀ (as : List (SwarmAction ℝ)) (a : SwarmAction ℝ), (∀ t, a ≠ .potential t) →
      (∀ r ∈ swarm as, r.velocity.norm ≤ 4) ∧
      ∀ (i : ℕ) (r r' : Robot ℝ), (swarm as)[i]? = some r → (swarm (as ++ [a]))[i]? = some r' →
        (r'.position.sub r.position).norm ≤ 4) := by
  refine ⟨?_, ?_⟩
  · intro rs t hrs
    refine ⟨_, rfl, ?_⟩
    rw [List.forall₂_map_right_iff, List.forall₂_same]
    exact fun r hr => Boids.movedSmoothly t.x t.y rs (hrs r hr)
  · intro as a ha
    refine ⟨norm_velocity_swarm_le as, fun i r r' hr hr' => ?_⟩
    rw [swarm_concat] at hr'
    exact norm_displacement_apply_le ha hr hr'

/-- Two robots at rest in one place. -/
theorem boids_speed_bounded_two :
    (∃ rs', moveToBoids 3 4 (.list [newRobot 0, newRobot 1]) = some (.list rs') ∧
      List.Forall₂ MovedSmoothly [newRobot 0, newRobot 1] rs') ∧
    ∀ r', (swarm (K := ℝ) [.register, .boids ⟨3, 4⟩])[0]? = some r' →
      (r'.position.sub (newRobot 0).position).norm ≤ 4 := by
  refine ⟨?_, ?_⟩
  · refine boids_speed_bounded.1 [newRobot 0, newRobot 1] ⟨3, 4⟩ ?_
    exact norm_velocity_swarm_le [.register, .register]
  · intro r' hr'
    exact (boids_speed_bounded.2 [.register] (.boids ⟨3, 4⟩) nofun).2 0 (newRobot 0) r' rfl hr'

end SwarmBase
