import SwarmBase.Ui.Boids
import SwarmBase.Ui.PotentialField

/-!
# Symmetries of the swarm

Both algorithms compute with differences of positions, with velocities, and with lengths of these.
So a tick has no preferred place, direction or orientation: whoever turns, mirrors or shifts the
plane, the robots and the target with it, sees the robots make the same movements (`Motion`). Only
the registration of a robot picks a point of the plane, the one it starts at. The loops over the
robots add up, so their order does not matter either.

* `swarm_equivariant` — both, over whole runs.
-/

namespace SwarmBase

open Framework

/-! ### Rigid motions of the plane -/

/-- A rigid motion: a turn or a reflection, and a shift. -/
structure Motion where
  linear : Vec ℝ →ₗᵢ[ℝ] Vec ℝ
  shift : Vec ℝ

namespace Motion

variable (m : Motion)

/-- Where a point is moved to. -/
noncomputable def point (p : Vec ℝ) : Vec ℝ := m.linear p + m.shift

/-- A robot, moved with the plane. -/
noncomputable def robot (r : Robot ℝ) : Robot ℝ :=
  { r with position := m.point r.position, velocity := m.linear r.velocity }

/-- A tick, with its target moved with the plane. -/
noncomputable def action : SwarmAction ℝ → SwarmAction ℝ
  | .register => .register
  | .boids t => .boids (m.point t)
  | .potential t => .potential (m.point t)

variable {R : ℝ} {rs rs' : List (Robot ℝ)} {r : Robot ℝ} {t p o : Vec ℝ}

@[simp] theorem point_sub_point (p o : Vec ℝ) : m.point p - m.point o = m.linear (p - o) := by
  unfold point
  rw [add_sub_add_right_eq_sub, map_sub]

theorem norm_point_sub_point (p o : Vec ℝ) : ‖m.point p - m.point o‖ = ‖p - o‖ := by
  rw [point_sub_point, m.linear.norm_map]

theorem near_robot (hrs : rs'.Perm (rs.map m.robot)) (r : Robot ℝ) :
    (near R rs' (m.robot r)).Perm ((near R rs r).map m.robot) := by
  have hnear : near R (rs.map m.robot) (m.robot r) = (near R rs r).map m.robot := by
    unfold near
    rw [List.filter_map]
    congr 1
    refine List.filter_congr fun o _ => ?_
    show decide (o.id ≠ r.id ∧ ((m.point o.position).sub (m.point r.position)).norm < R) = _
    rw [Vec.norm_eq, Vec.sub_eq, norm_point_sub_point, Vec.norm_eq, Vec.sub_eq]
  rw [← hnear]
  exact hrs.filter _

/-- What a loop over the neighbours adds up. -/
theorem sum_near {M : Type} [AddCommMonoid M] (hrs : rs'.Perm (rs.map m.robot)) (r : Robot ℝ)
    (f : Robot ℝ → M) :
    ((near R rs' (m.robot r)).map f).sum = ((near R rs r).map fun o => f (m.robot o)).sum := by
  rw [((m.near_robot hrs r).map f).sum_eq, List.map_map]
  rfl

/-! ### Potential Field -/

theorem pull_point (t p : Vec ℝ) :
    PotentialField.pull (m.point t) (m.point p) = m.linear (PotentialField.pull t p) := by
  unfold PotentialField.pull
  rw [norm_point_sub_point, point_sub_point]
  split_ifs
  · exact (m.linear.map_smul _ _).symm
  · exact (map_zero m.linear).symm

theorem force_robot (hrs : rs'.Perm (rs.map m.robot)) (t : Vec ℝ) (r : Robot ℝ) :
    PotentialField.force (m.point t) rs' (m.robot r) =
      m.linear (PotentialField.force t rs r) := by
  unfold PotentialField.force
  rw [m.sum_near hrs, map_add, map_list_sum, List.map_map]
  show PotentialField.pull (m.point t) (m.point r.position) + _ = _
  rw [pull_point]
  congr 2
  refine List.map_congr_left fun o _ => ?_
  show (_ / ‖m.point r.position - m.point o.position‖ ^ 3) •
    (m.point r.position - m.point o.position) = m.linear _
  rw [norm_point_sub_point, point_sub_point]
  exact (m.linear.map_smul _ _).symm

theorem potential_robot (hrs : rs'.Perm (rs.map m.robot)) (t : Vec ℝ) (r : Robot ℝ) :
    PotentialField.move (m.point t).x (m.point t).y rs' (m.robot r) =
      m.robot (PotentialField.move t.x t.y rs r) := by
  have hposition : (PotentialField.move (m.point t).x (m.point t).y rs' (m.robot r)).position =
      m.point (PotentialField.move t.x t.y rs r).position := by
    rw [PotentialField.position_move, PotentialField.position_move,
      PotentialField.fAtt_add_fRep, PotentialField.fAtt_add_fRep, m.force_robot hrs]
    show m.linear r.position + m.shift + _ = m.linear _ + m.shift
    rw [map_add, map_smul, add_right_comm]
  exact congrArg (fun p => Robot.mk r.id p (m.linear r.velocity)) hposition

/-! ### Boids -/

theorem steer_robot (v : Vec ℝ) (r : Robot ℝ) :
    Boids.steer (m.linear v) (m.robot r) = m.linear (Boids.steer v r) := by
  rw [Boids.steer_eq, Boids.steer_eq, map_cut, map_sub]
  rfl

theorem normalize_linear (v : Vec ℝ) : (m.linear v).normalize = m.linear v.normalize := by
  rw [Vec.normalize_eq, Vec.normalize_eq, m.linear.norm_map, map_smul]

theorem scale_linear (v : Vec ℝ) (k : ℝ) : (m.linear v).scale k = m.linear (v.scale k) :=
  (m.linear.map_smul k v).symm

theorem div_eq_smul (v : Vec ℝ) (k : ℝ) : (⟨v.x / k, v.y / k⟩ : Vec ℝ) = k⁻¹ • v := by
  refine Vec.ext ?_ ?_
  · rw [Vec.smul_x]
    exact div_eq_inv_mul v.x k
  · rw [Vec.smul_y]
    exact div_eq_inv_mul v.y k

theorem seek_robot (t : Vec ℝ) (r : Robot ℝ) :
    Boids.seek (m.point t).x (m.point t).y (m.robot r) = m.linear (Boids.seek t.x t.y r) := by
  have hseek : ∀ (t : Vec ℝ) (r : Robot ℝ), Boids.seek t.x t.y r =
      if 0 < ‖t - r.position‖ then
        Boids.steer ((‖t - r.position‖⁻¹ • (t - r.position)).scale Boids.maxSpeed) r
      else 0 := by
    intro t r
    unfold Boids.seek
    dsimp only
    rw [Vec.hypot_sub, ← div_eq_smul]
    rfl
  rw [hseek, hseek]
  show (if 0 < ‖m.point t - m.point r.position‖ then
    Boids.steer ((‖m.point t - m.point r.position‖⁻¹ •
      (m.point t - m.point r.position)).scale Boids.maxSpeed) (m.robot r) else 0) = _
  rw [norm_point_sub_point, point_sub_point, ← map_smul, scale_linear, steer_robot]
  split_ifs
  · rfl
  · exact (map_zero m.linear).symm

/-- What the neighbour loop adds up: the sum of the positions moves with the plane, the others
turn with it. -/
theorem neighbors_robot (hrs : rs'.Perm (rs.map m.robot)) (r : Robot ℝ) :
    Boids.neighbors rs' (m.robot r) =
      { sep := m.linear (Boids.neighbors rs r).sep
        align := m.linear (Boids.neighbors rs r).align
        coh := m.linear (Boids.neighbors rs r).coh + (near 50 rs r).length • m.shift
        countAlign := (near 50 rs r).length
        countCoh := (near 50 rs r).length } := by
  have hlen : (near 50 rs' (m.robot r)).length = (near 50 rs r).length := by
    rw [(m.near_robot hrs r).length_eq, List.length_map]
  rw [Boids.neighbors_eq, Boids.neighbors_eq, m.sum_near hrs, m.sum_near hrs, m.sum_near hrs, hlen]
  refine Boids.Neighbors.ext ?_ ?_ ?_ rfl rfl
  · show _ = m.linear (List.sum _)
    rw [map_list_sum, List.map_map]
    refine congrArg List.sum (List.map_congr_left fun o _ => ?_)
    show Boids.away (m.point r.position) (m.point o.position) = m.linear (Boids.away _ _)
    unfold Boids.away
    rw [norm_point_sub_point, point_sub_point, map_smul]
  · show _ = m.linear (List.sum _)
    rw [map_list_sum, List.map_map]
    rfl
  · show ((near 50 rs r).map fun o => m.linear o.position + m.shift).sum =
      m.linear (List.sum _) + _
    rw [List.sum_map_add, map_list_sum, List.map_map, List.map_const', List.sum_replicate]
    rfl

theorem separation_robot (hrs : rs'.Perm (rs.map m.robot)) (r : Robot ℝ) :
    Boids.separation (Boids.neighbors rs' (m.robot r)) (m.robot r) =
      m.linear (Boids.separation (Boids.neighbors rs r) r) := by
  unfold Boids.separation
  rw [m.neighbors_robot hrs]
  dsimp only
  rw [normalize_linear, scale_linear, steer_robot]

theorem alignment_robot (hrs : rs'.Perm (rs.map m.robot)) (r : Robot ℝ) :
    Boids.alignment (Boids.neighbors rs' (m.robot r)) (m.robot r) =
      m.linear (Boids.alignment (Boids.neighbors rs r) r) := by
  have hcount : (Boids.neighbors rs r).countAlign = (near 50 rs r).length := by
    rw [Boids.neighbors_eq]
  unfold Boids.alignment
  rw [m.neighbors_robot hrs, hcount]
  dsimp only
  split_ifs
  · rw [div_eq_smul, div_eq_smul, ← map_smul, normalize_linear, scale_linear, steer_robot]
  · rfl

theorem cohesion_robot (hrs : rs'.Perm (rs.map m.robot)) (r : Robot ℝ) :
    Boids.cohesion (Boids.neighbors rs' (m.robot r)) (m.robot r) =
      m.linear (Boids.cohesion (Boids.neighbors rs r) r) := by
  have hcount : (Boids.neighbors rs r).countCoh = (near 50 rs r).length := by
    rw [Boids.neighbors_eq]
  unfold Boids.cohesion
  rw [m.neighbors_robot hrs, hcount]
  dsimp only
  split_ifs with hpos
  · -- the mean of the positions moves with the plane, and so does the robot
    have hk : ((near 50 rs r).length : ℝ) ≠ 0 := Nat.cast_ne_zero.mpr hpos.ne'
    have hmean : ((near 50 rs r).length : ℝ)⁻¹ • (m.linear (Boids.neighbors rs r).coh +
        (near 50 rs r).length • m.shift) =
          m.point (((near 50 rs r).length : ℝ)⁻¹ • (Boids.neighbors rs r).coh) := by
      unfold point
      rw [smul_add, map_smul, ← Nat.cast_smul_eq_nsmul ℝ, inv_smul_smul₀ hk]
    have hposition : (m.robot r).position = m.point r.position := rfl
    rw [div_eq_smul, div_eq_smul, hmean, hposition, Vec.sub_eq, Vec.sub_eq, point_sub_point,
      normalize_linear, scale_linear, steer_robot]
  · -- nothing was added up
    rw [Nat.eq_zero_of_not_pos hpos, zero_smul, add_zero]

theorem boids_robot (hrs : rs'.Perm (rs.map m.robot)) (t : Vec ℝ) (r : Robot ℝ) :
    Boids.move (m.point t).x (m.point t).y rs' (m.robot r) =
      m.robot (Boids.move t.x t.y rs r) := by
  have haccel : Boids.accel (m.point t).x (m.point t).y rs' (m.robot r) =
      m.linear (Boids.accel t.x t.y rs r) := by
    rw [Boids.accel_eq, Boids.accel_eq, m.separation_robot hrs, m.alignment_robot hrs,
      m.cohesion_robot hrs, m.seek_robot]
    simp only [map_add, map_smul]
  have hvelocity : (Boids.move (m.point t).x (m.point t).y rs' (m.robot r)).velocity =
      m.linear (Boids.move t.x t.y rs r).velocity := by
    rw [Boids.velocity_move, Boids.velocity_move, map_cut, haccel, map_add]
    rfl
  have hposition : (Boids.move (m.point t).x (m.point t).y rs' (m.robot r)).position =
      m.point (Boids.move t.x t.y rs r).position := by
    rw [Boids.position_move, Boids.position_move, hvelocity]
    show m.linear r.position + m.shift + _ = m.linear _ + m.shift
    rw [map_add, add_right_comm]
  exact congrArg₂ (Robot.mk r.id) hposition hvelocity

/-! ### One registration or tick -/

/-- A registration is not moved with the plane, unless the point where robots start is fixed. -/
def Keeps (a : SwarmAction ℝ) : Prop := a = .register → m.shift = 0

variable {m} {a : SwarmAction ℝ}

theorem newRobot_eq (h : m.shift = 0) (n : ℕ) : m.robot (newRobot n) = newRobot n := by
  have hposition : m.point (0 : Vec ℝ) = 0 := by
    unfold point
    rw [map_zero, h, add_zero]
  exact congrArg₂ (Robot.mk n) hposition (map_zero m.linear)

theorem apply_perm (ha : m.Keeps a) (hrs : rs'.Perm (rs.map m.robot)) :
    ((m.action a).apply rs').Perm ((a.apply rs).map m.robot) := by
  cases a with
  | register =>
    show (rs' ++ [newRobot rs'.length]).Perm ((rs ++ [newRobot rs.length]).map m.robot)
    rw [List.map_append, List.map_singleton, newRobot_eq (ha rfl), hrs.length_eq, List.length_map]
    exact hrs.append_right _
  | boids t =>
    show (rs'.map _).Perm ((rs.map _).map m.robot)
    refine (hrs.map _).trans (List.Perm.of_eq ?_)
    rw [List.map_map, List.map_map]
    exact List.map_congr_left fun r _ => m.boids_robot hrs t r
  | potential t =>
    show (rs'.map _).Perm ((rs.map _).map m.robot)
    refine (hrs.map _).trans (List.Perm.of_eq ?_)
    rw [List.map_map, List.map_map]
    exact List.map_congr_left fun r _ => m.potential_robot hrs t r

theorem apply_eq (ha : m.Keeps a) (rs : List (Robot ℝ)) :
    (m.action a).apply (rs.map m.robot) = (a.apply rs).map m.robot := by
  cases a with
  | register =>
    show rs.map m.robot ++ [newRobot (rs.map m.robot).length] = (rs ++ [_]).map m.robot
    rw [List.map_append, List.map_singleton, newRobot_eq (ha rfl), List.length_map]
  | boids t =>
    show (rs.map m.robot).map _ = (rs.map _).map m.robot
    rw [List.map_map, List.map_map]
    exact List.map_congr_left fun r _ => m.boids_robot (.refl _) t r
  | potential t =>
    show (rs.map m.robot).map _ = (rs.map _).map m.robot
    rw [List.map_map, List.map_map]
    exact List.map_congr_left fun r _ => m.potential_robot (.refl _) t r

end Motion

/-! ### Whole runs -/

/-- **The swarm has no preferred place, direction or order.** For every rigid motion of the plane,
every list of robots and every run of registrations and ticks of both algorithms, with no
registration among them if the motion shifts the point where robots start: if the robots and all
targets are moved first, the run ends with the same robots, moved; and if the robots are in another
order as well, it ends with them in some order. -/
theorem swarm_equivariant (m : Motion) (rs : List (Robot ℝ)) (as : List (SwarmAction ℝ))
    (has : ∀ a ∈ as, m.Keeps a) :
    (as.map m.action).foldl SwarmAction.apply (rs.map m.robot) =
      (as.foldl SwarmAction.apply rs).map m.robot ∧
    ∀ rs', rs'.Perm (rs.map m.robot) →
      ((as.map m.action).foldl SwarmAction.apply rs').Perm
        ((as.foldl SwarmAction.apply rs).map m.robot) := by
  induction as generalizing rs with
  | nil => exact ⟨rfl, fun _ hrs => hrs⟩
  | cons a as ih =>
    obtain ⟨ha, has⟩ := List.forall_mem_cons.mp has
    obtain ⟨heq, hperm⟩ := ih (a.apply rs) has
    refine ⟨?_, ?_⟩
    · rw [List.map_cons, List.foldl_cons, List.foldl_cons, Motion.apply_eq ha, heq]
    · intro rs' hrs
      rw [List.map_cons, List.foldl_cons, List.foldl_cons]
      exact hperm _ (Motion.apply_perm ha hrs)

/-- A quarter turn, and two robots of which the second is turned first. -/
theorem swarm_equivariant_turn :
    ∃ m : Motion, m.point ⟨3, 4⟩ = ⟨-4, 3⟩ ∧
      let as : List (SwarmAction ℝ) := [.boids ⟨3, 4⟩, .register, .potential ⟨3, 4⟩]
      let rs : List (Robot ℝ) := [newRobot 0, ⟨1, ⟨5, 0⟩, ⟨0, 1⟩⟩]
      (as.map m.action).foldl SwarmAction.apply (rs.map m.robot) =
        (as.foldl SwarmAction.apply rs).map m.robot ∧
      ∀ rs', rs'.Perm (rs.map m.robot) →
        ((as.map m.action).foldl SwarmAction.apply rs').Perm
          ((as.foldl SwarmAction.apply rs).map m.robot) := by
  let turn : Vec ℝ →ₗ[ℝ] Vec ℝ :=
    { toFun := fun v => ⟨-v.y, v.x⟩
      map_add' := fun v w => Vec.ext (neg_add v.y w.y) rfl
      map_smul' := fun k v => Vec.ext (neg_mul v.y k).symm rfl }
  have hnorm : ∀ v, ‖turn v‖ = ‖v‖ := by
    intro v
    rw [← Vec.norm_eq, ← Vec.norm_eq]
    show √((-v.y) ^ 2 + v.x ^ 2) = √(v.x ^ 2 + v.y ^ 2)
    rw [neg_sq, add_comm]
  let m : Motion := ⟨⟨turn, hnorm⟩, 0⟩
  refine ⟨m, ?_, swarm_equivariant m _ _ fun _ _ _ => rfl⟩
  exact Vec.ext (add_zero _) (add_zero _)

end SwarmBase
