import SwarmBase.Ui.Neighbors

/-!
# The forces of a Potential Field tick

A tick moves a robot by `0.8` times the force on it: the pull to the target, which is capped, and
the pushes of the robots within the separation distance, which are not.

* `sum_displacements` — the pushes cancel out over the swarm, which is moved by the pulls alone;
* `displacements_within_of_distances` — a tick keeps to `maxSpeed` if on every robot the lengths of
  the pull and of the pushes, which are functions of the distances alone, add up to at most `6.25`
  (`strength`). More is too much if they have one direction (`OneRay`), or if one push exceeds all
  the rest by that;
* `repulsion_exceeds_speed` — two robots at distance `1`.
-/

namespace SwarmBase

open Framework

/-- The displacements of the robots of a list, given the list after a tick. -/
def displacements {K : Type} [JsArith K] (rs rs' : List (Robot K)) : List (Vec K) :=
  List.zipWith (fun r r' => r'.position.sub r.position) rs rs'

namespace PotentialField

variable {rs : List (Robot ℝ)} {r o : Robot ℝ} {t : Vec ℝ}

/-! ### The force on one robot -/

/-- The pull of the target `t` on a robot at `p`: a tenth of the way, at most `5`, and none within
the stopping distance. -/
noncomputable def pull (t p : Vec ℝ) : Vec ℝ :=
  if stoppingDist < ‖t - p‖ then (min (‖t - p‖ * attGain) maxSpeed / ‖t - p‖) • (t - p) else 0

theorem mul_attGain (d : ℝ) : d * attGain = d / 10 := by
  change d * 0.1 = d / 10
  norm_num [div_eq_mul_inv]

theorem pull_eq (t p : Vec ℝ) : pull t p =
    if 5 < ‖t - p‖ then (min (‖t - p‖ / 10) 5 / ‖t - p‖) • (t - p) else 0 := by
  unfold pull
  rw [mul_attGain]
  rfl

/-- The force on a robot of a list: the pull of the target, and `300 / d ^ 2` away from every
robot of another id at a distance `d < 20`. -/
noncomputable def force (t : Vec ℝ) (rs : List (Robot ℝ)) (r : Robot ℝ) : Vec ℝ :=
  pull t r.position + ((near sepDist rs r).map fun o =>
    (repGain / ‖r.position - o.position‖ ^ 3) • (r.position - o.position)).sum

theorem force_eq (t : Vec ℝ) (rs : List (Robot ℝ)) (r : Robot ℝ) : force t rs r =
    pull t r.position + ((near 20 rs r).map fun o =>
      (300 / ‖r.position - o.position‖ ^ 3) • (r.position - o.position)).sum := rfl

theorem fAtt_eq (t : Vec ℝ) (r : Robot ℝ) : fAtt t.x t.y r = pull t r.position := by
  unfold fAtt pull
  dsimp only
  rw [Vec.hypot_sub]
  change (if stoppingDist < ‖t - r.position‖ then _ else (0 : Vec ℝ)) = _
  congr 1
  refine Vec.ext ?_ ?_
  · rw [Vec.smul_x, Vec.sub_x]
    change (t.x - r.position.x) / ‖t - r.position‖ * min _ _ = _
    ring
  · rw [Vec.smul_y, Vec.sub_y]
    change (t.y - r.position.y) / ‖t - r.position‖ * min _ _ = _
    ring

/-- The code computes the force. -/
theorem fAtt_add_fRep (t : Vec ℝ) (rs : List (Robot ℝ)) (r : Robot ℝ) :
    fAtt t.x t.y r + fRep rs r = force t rs r := by
  rw [fAtt_eq, fRep_eq, force_eq]
  congr 2
  refine List.map_congr_left fun o ho => ?_
  have hnear : ‖r.position - o.position‖ < 20 := by
    rw [near_eq] at ho
    rw [norm_sub_rev]
    simpa using (List.mem_filter.mp ho).2
  rw [push_eq, if_pos hnear]

theorem position_move_sub (t : Vec ℝ) (rs : List (Robot ℝ)) (r : Robot ℝ) :
    (move t.x t.y rs r).position - r.position = (0.8 : ℝ) • force t rs r := by
  rw [position_move, fAtt_add_fRep, add_sub_cancel_left]

theorem displacements_eq (t : Vec ℝ) (rs : List (Robot ℝ)) :
    displacements rs (rs.map (move t.x t.y rs)) = rs.map fun r => (0.8 : ℝ) • force t rs r := by
  unfold displacements
  rw [List.zipWith_map_right, List.zipWith_self]
  exact List.map_congr_left fun r _ => position_move_sub t rs r

/-- The displacements keep to the speed limit if the forces keep to the limit that the damping
leaves for them. -/
theorem forall_displacements_iff (t : Vec ℝ) (rs : List (Robot ℝ)) :
    (∀ d ∈ displacements rs (rs.map (move t.x t.y rs)), d.norm ≤ maxSpeed) ↔
      ∀ r ∈ rs, ‖force t rs r‖ ≤ 6.25 := by
  rw [displacements_eq, List.forall_mem_map]
  refine forall₂_congr fun r _ => ?_
  rw [Vec.norm_eq, norm_smul, Real.norm_of_nonneg (by norm_num)]
  change 0.8 * ‖force t rs r‖ ≤ 5 ↔ _
  refine ⟨?_, ?_⟩
  · intro h
    linarith
  · intro h
    linarith

/-! ### The strength of the forces -/

/-- How strong the pull is: the `speed` of the source. -/
noncomputable def speed (t p : Vec ℝ) : ℝ :=
  if stoppingDist < ‖t - p‖ then min (‖t - p‖ * attGain) maxSpeed else 0

/-- How strong the pull and the pushes on a robot are together. Only distances enter: that of the
target, and those of the robots of other ids within the separation distance. -/
noncomputable def strength (t : Vec ℝ) (rs : List (Robot ℝ)) (r : Robot ℝ) : ℝ :=
  speed t r.position + ((near sepDist rs r).map fun o =>
    repGain / ‖r.position - o.position‖ ^ 2).sum

/-- The pull and the pushes on a robot have one direction: the robots that push it are in line
behind it, and the target, unless it is within the stopping distance, is ahead. -/
def OneRay (t : Vec ℝ) (rs : List (Robot ℝ)) (r : Robot ℝ) : Prop :=
  ∃ u : Vec ℝ, u ≠ 0 ∧ (stoppingDist < ‖t - r.position‖ → SameRay ℝ u (t - r.position)) ∧
    ∀ o ∈ near sepDist rs r, SameRay ℝ u (r.position - o.position)

theorem speed_eq (t p : Vec ℝ) :
    speed t p = if 5 < ‖t - p‖ then min (‖t - p‖ / 10) 5 else 0 := by
  unfold speed
  rw [mul_attGain]
  rfl

theorem norm_pull (t p : Vec ℝ) : ‖pull t p‖ = speed t p := by
  rw [pull_eq, speed_eq]
  split_ifs with hfar
  · have hpos : 0 < ‖t - p‖ := by linarith
    have hmin : 0 ≤ min (‖t - p‖ / 10) 5 := le_min (by positivity) (by norm_num)
    rw [norm_smul, Real.norm_of_nonneg (div_nonneg hmin hpos.le), div_mul_cancel₀ _ hpos.ne']
  · exact norm_zero

theorem speed_le (t p : Vec ℝ) : speed t p ≤ 5 := by
  rw [speed_eq]
  split_ifs
  · exact min_le_right _ _
  · norm_num

/-- A push, also by a robot in the same place, which is none. -/
theorem norm_push (p o : Vec ℝ) : ‖(300 / ‖p - o‖ ^ 3) • (p - o)‖ = 300 / ‖p - o‖ ^ 2 := by
  rcases eq_or_ne ‖p - o‖ 0 with hzero | hne
  · rw [norm_smul, hzero]
    norm_num
  · rw [norm_smul, Real.norm_of_nonneg (by positivity)]
    field_simp

/-- The pull and the pushes. -/
noncomputable def forces (t : Vec ℝ) (rs : List (Robot ℝ)) (r : Robot ℝ) : List (Vec ℝ) :=
  pull t r.position :: (near sepDist rs r).map fun o =>
    (repGain / ‖r.position - o.position‖ ^ 3) • (r.position - o.position)

theorem sum_forces (t : Vec ℝ) (rs : List (Robot ℝ)) (r : Robot ℝ) :
    (forces t rs r).sum = force t rs r :=
  List.sum_cons

theorem sum_norm_forces (t : Vec ℝ) (rs : List (Robot ℝ)) (r : Robot ℝ) :
    ((forces t rs r).map fun v => ‖v‖).sum = strength t rs r := by
  unfold forces
  rw [List.map_cons, List.sum_cons, norm_pull, List.map_map]
  congr 2
  exact List.map_congr_left fun o _ => norm_push r.position o.position

theorem norm_force_le (t : Vec ℝ) (rs : List (Robot ℝ)) (r : Robot ℝ) :
    ‖force t rs r‖ ≤ strength t rs r := by
  rw [← sum_forces, ← sum_norm_forces]
  exact norm_list_sum_le _

theorem norm_force_of_oneRay (h : OneRay t rs r) : ‖force t rs r‖ = strength t rs r := by
  obtain ⟨u, hu, htarget, hothers⟩ := h
  rw [← sum_forces, ← sum_norm_forces]
  refine norm_list_sum_of_sameRay hu fun v hv => ?_
  obtain rfl | hv := List.mem_cons.mp hv
  · rw [pull_eq]
    split_ifs with hfar
    · exact (htarget hfar).nonneg_smul_right (by positivity)
    · exact .zero_right u
  · obtain ⟨o, ho, rfl⟩ := List.mem_map.mp hv
    change SameRay ℝ u ((300 / ‖r.position - o.position‖ ^ 3) • (r.position - o.position))
    exact (hothers o ho).nonneg_smul_right (by positivity)

/-- The rest of the forces can take away from one push at most what they are strong. -/
theorem le_norm_force_of_mem (ho : o ∈ near 20 rs r) (t : Vec ℝ) :
    2 * (300 / ‖r.position - o.position‖ ^ 2) - strength t rs r ≤ ‖force t rs r‖ := by
  rw [← sum_forces, ← sum_norm_forces, ← norm_push]
  exact two_mul_norm_sub_le (List.mem_cons_of_mem _ (List.mem_map_of_mem ho))

/-! ### A robot that nobody pushes -/

/-- No other robot within the separation distance is in another place. -/
def Unpushed (rs : List (Robot ℝ)) (r : Robot ℝ) : Prop :=
  ∀ o ∈ near sepDist rs r, o.position = r.position

theorem force_of_unpushed (h : Unpushed rs r) (t : Vec ℝ) : force t rs r = pull t r.position := by
  have hzero : ∀ v ∈ (near sepDist rs r).map fun o =>
      (repGain / ‖r.position - o.position‖ ^ 3) • (r.position - o.position), v = 0 := by
    intro v hv
    obtain ⟨o, ho, rfl⟩ := List.mem_map.mp hv
    rw [h o ho, sub_self, smul_zero]
  unfold force
  rw [List.sum_eq_zero hzero, add_zero]

theorem pull_eq_zero_iff (t p : Vec ℝ) : pull t p = 0 ↔ ‖t - p‖ ≤ 5 := by
  rw [← norm_eq_zero, norm_pull, speed_eq]
  split_ifs with hfar
  · have hpos : 0 < min (‖t - p‖ / 10) 5 := lt_min (by linarith) (by norm_num)
    exact iff_of_false hpos.ne' (not_le.mpr hfar)
  · exact iff_of_true rfl (not_lt.mp hfar)

/-! ### The swarm as a whole -/

/-- What two robots contribute to each other's repulsion. -/
theorem sum_fRep (rs : List (Robot ℝ)) : (rs.map (fRep rs)).sum = 0 := by
  have hrow : ∀ r, fRep rs r =
      (rs.map fun o => if o.id ≠ r.id then push r.position o.position else 0).sum := by
    intro r
    rw [fRep_eq_others, sum_map_ite_zero]
    rfl
  rw [List.map_congr_left fun r _ => hrow r]
  refine sum_pairs_eq_zero (fun r => if_neg (not_not.mpr rfl)) (fun r o => ?_) rs
  -- each skips the other, or they push in opposite directions
  by_cases hid : o.id = r.id
  · rw [if_neg (not_not.mpr hid), if_neg (not_not.mpr hid.symm), add_zero]
  · rw [if_pos hid, if_pos (Ne.symm hid), push_swap, neg_add_cancel]

end PotentialField

/-- **Mutual repulsion does not move the swarm.** For every list of robots and every target: the
displacements of a Potential Field tick add up to `0.8` times the sum of the attractions. -/
theorem sum_displacements (rs : List (Robot ℝ)) (t : Vec ℝ) :
    ∃ rs', moveToPotentialField t.x t.y (.list rs) = some (.list rs') ∧
      rs'.length = rs.length ∧
      (displacements rs rs').sum =
        (rs.map fun r => PotentialField.fAtt t.x t.y r).sum.scale 0.8 := by
  refine ⟨_, rfl, List.length_map _, ?_⟩
  rw [PotentialField.displacements_eq]
  calc (rs.map fun r => (0.8 : ℝ) • PotentialField.force t rs r).sum
      = (0.8 : ℝ) • (rs.map fun r => PotentialField.force t rs r).sum := by
        rw [List.smul_sum, List.map_map]
        rfl
    _ = (0.8 : ℝ) • ((rs.map fun r => PotentialField.fAtt t.x t.y r).sum +
          (rs.map (PotentialField.fRep rs)).sum) := by
        rw [← List.sum_map_add]
        simp only [PotentialField.fAtt_add_fRep]
    -- the pushes of each two robots cancel out
    _ = (0.8 : ℝ) • (rs.map fun r => PotentialField.fAtt t.x t.y r).sum := by
        rw [PotentialField.sum_fRep, add_zero]

/-- **What a tick's speed limit takes.** For every list of robots and every target: a Potential
Field tick displaces no robot by more than `maxSpeed` if on every robot the pull, of `speed` at the
distance of the target, and the pushes, of `300 / d ^ 2` each, add up to at most `6.25`. This is all
that can be said of the distances: on a robot on which they add up to more it depends on the
directions. If they all have one, it is displaced by more than `maxSpeed`; if one push alone exceeds
`6.25` and the rest, it is so whatever the directions are. -/
theorem displacements_within_of_distances (rs : List (Robot ℝ)) (t : Vec ℝ) :
    ((∀ r ∈ rs, PotentialField.strength t rs r ≤ 6.25) →
      ∃ rs', moveToPotentialField t.x t.y (.list rs) = some (.list rs') ∧
        ∀ d ∈ displacements rs rs', d.norm ≤ PotentialField.maxSpeed) ∧
    ∀ r ∈ rs, (PotentialField.OneRay t rs r ∧ 6.25 < PotentialField.strength t rs r ∨
        ∃ o ∈ near PotentialField.sepDist rs r, 6.25 + PotentialField.strength t rs r <
          2 * (PotentialField.repGain / ‖r.position - o.position‖ ^ 2)) →
      ¬ ∃ rs', moveToPotentialField t.x t.y (.list rs) = some (.list rs') ∧
        ∀ d ∈ displacements rs rs', d.norm ≤ PotentialField.maxSpeed := by
  refine ⟨?_, ?_⟩
  · intro hstrength
    refine ⟨_, rfl, (PotentialField.forall_displacements_iff t rs).mpr fun r hr => ?_⟩
    exact (PotentialField.norm_force_le t rs r).trans (hstrength r hr)
  · -- one robot on which the force is longer than `6.25` is enough
    rintro r hr hstrong ⟨rs', hmove, hwithin⟩
    obtain rfl := RobotsState.list.inj (Option.some.inj hmove)
    have hforce := (PotentialField.forall_displacements_iff t rs).mp hwithin r hr
    obtain ⟨hray, hstrong⟩ | ⟨o, ho, hstrong⟩ := hstrong
    · rw [PotentialField.norm_force_of_oneRay hray] at hforce
      exact absurd hforce (not_le.mpr hstrong)
    · have hle := PotentialField.le_norm_force_of_mem ho t
      change _ < 2 * (300 / ‖r.position - o.position‖ ^ 2) at hstrong
      linarith

/-- Two robots `18` px apart, far from the target: both are pushed. -/
theorem displacements_within_of_distances_two :
    let rs : List (Robot ℝ) := [⟨0, ⟨0, 0⟩, ⟨0, 0⟩⟩, ⟨1, ⟨18, 0⟩, ⟨0, 0⟩⟩]
    (∀ r ∈ rs, near PotentialField.sepDist rs r ≠ []) ∧
      ∃ rs', moveToPotentialField 100 0 (.list rs) = some (.list rs') ∧
        ∀ d ∈ displacements rs rs', d.norm ≤ PotentialField.maxSpeed := by
  let r : Robot ℝ := ⟨0, ⟨0, 0⟩, ⟨0, 0⟩⟩
  let o : Robot ℝ := ⟨1, ⟨18, 0⟩, ⟨0, 0⟩⟩
  have hdist : ‖o.position - r.position‖ = 18 := by
    rw [← Vec.norm_eq]
    change √((18 - 0) ^ 2 + (0 - 0) ^ 2) = 18
    rw [sub_self, sub_zero, zero_pow two_ne_zero, add_zero]
    exact Real.sqrt_sq (by norm_num)
  -- each is the one neighbour of the other
  have hnear : ∀ a ∈ [r, o], ∃ b, near 20 [r, o] a = [b] ∧ ‖a.position - b.position‖ = 18 := by
    intro a ha
    obtain rfl | rfl := List.mem_pair.mp ha
    · refine ⟨o, ?_, by rw [norm_sub_rev, hdist]⟩
      rw [near_eq]
      change [o].filter (fun b => ‖b.position - r.position‖ < 20) = [o]
      exact List.filter_cons_of_pos (by rw [hdist]; norm_num)
    · refine ⟨r, ?_, hdist⟩
      rw [near_eq]
      change [r].filter (fun b => ‖b.position - o.position‖ < 20) = [r]
      exact List.filter_cons_of_pos (by rw [norm_sub_rev, hdist]; norm_num)
  refine ⟨fun a ha => ?_, (displacements_within_of_distances [r, o] ⟨100, 0⟩).1 fun a ha => ?_⟩
  · obtain ⟨b, hb, -⟩ := hnear a ha
    change near 20 [r, o] a ≠ []
    rw [hb]
    exact List.cons_ne_nil _ _
  · obtain ⟨b, hb, hab⟩ := hnear a ha
    unfold PotentialField.strength
    change _ + ((near 20 [r, o] a).map fun o => 300 / ‖a.position - o.position‖ ^ 2).sum ≤ _
    rw [hb, List.map_singleton, List.sum_singleton, hab]
    refine (add_le_add_left (PotentialField.speed_le ⟨100, 0⟩ a.position) _).trans ?_
    norm_num

/-- Two robots at distance `1` are thrown apart. -/
theorem repulsion_exceeds_speed :
    ¬ ∀ (rs : List (Robot ℝ)) (t : Vec ℝ), (rs.map Robot.id).Nodup →
      ∃ rs', moveToPotentialField t.x t.y (.list rs) = some (.list rs') ∧
        ∀ d ∈ displacements rs rs', d.norm ≤ PotentialField.maxSpeed := by
  intro h
  let r : Robot ℝ := ⟨0, ⟨0, 0⟩, ⟨0, 0⟩⟩
  let o : Robot ℝ := ⟨1, ⟨1, 0⟩, ⟨0, 0⟩⟩
  have hdist : ‖o.position - r.position‖ = 1 := by
    rw [← Vec.norm_eq]
    change √((1 - 0) ^ 2 + (0 - 0) ^ 2) = 1
    norm_num
  have hnear : near 20 [r, o] r = [o] := by
    rw [near_eq]
    change [o].filter (fun o => ‖o.position - r.position‖ < 20) = [o]
    exact List.filter_cons_of_pos (by rw [hdist]; norm_num)
  obtain ⟨rs', hmove, hwithin⟩ := h [r, o] 0 (by decide)
  obtain rfl := RobotsState.list.inj (Option.some.inj hmove)
  have hforce := (PotentialField.forall_displacements_iff 0 [r, o]).mp hwithin r List.mem_cons_self
  -- the push is `300`, and the pull at most `5`
  have hle := PotentialField.le_norm_force_of_mem (hnear ▸ List.mem_singleton_self o) 0
  have hstrength : PotentialField.strength 0 [r, o] r ≤ 5 + 300 := by
    unfold PotentialField.strength
    change _ + ((near 20 [r, o] r).map fun o => 300 / ‖r.position - o.position‖ ^ 2).sum ≤ _
    rw [hnear, List.map_singleton, List.sum_singleton, norm_sub_rev, hdist]
    exact add_le_add (PotentialField.speed_le 0 r.position) (by norm_num)
  rw [norm_sub_rev, hdist] at hle
  linarith

end SwarmBase
