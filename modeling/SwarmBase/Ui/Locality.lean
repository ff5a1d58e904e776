import SwarmBase.Ui.Boids
import SwarmBase.Ui.PotentialField

/-!
# What a robot's movement depends on

A tick of a swarm algorithm computes the new position and velocity of a robot from the old list.
It reads the positions of the others relative to the robot's own only, and only those within the
outer radius of the algorithm: `visionRadius` for Boids, `sepDist` for Potential Field. Cohesion
adds up absolute positions, but subtracts the robot's own from their mean.

Two robots that see the same (`SeesAlike`) are moved alike (`step_local`): they may be in
different lists, in different places of them, among different far-away robots, and in different
parts of the plane.
-/

namespace SwarmBase

open Framework

/-- A robot of one list, moved by `t`, sees within a radius what a robot of another list sees. -/
structure SeesAlike (radius : ℝ) (t : Vec ℝ) (rs : List (Robot ℝ)) (r : Robot ℝ)
    (rs' : List (Robot ℝ)) (r' : Robot ℝ) : Prop where
  position : r'.position = r.position.add t
  velocity : r'.velocity = r.velocity
  neighbors : (((near radius rs r).map fun o => (o.position.add t, o.velocity) :
      List (Vec ℝ × Vec ℝ)) : Multiset (Vec ℝ × Vec ℝ)) =
    ((near radius rs' r').map fun o => (o.position, o.velocity) : List (Vec ℝ × Vec ℝ))

/-- Two robots are moved alike, `t` apart. -/
structure MovedAlike (t : Vec ℝ) (q q' : Robot ℝ) : Prop where
  velocity : q'.velocity = q.velocity
  position : q'.position = q.position.add t

variable {R : ℝ} {t g : Vec ℝ} {rs rs' : List (Robot ℝ)} {r r' : Robot ℝ}

/-! ### What two robots that see the same compute -/

namespace SeesAlike

theorem perm (h : SeesAlike R t rs r rs' r') :
    List.Perm ((near R rs' r').map fun o => (o.position, o.velocity))
      ((near R rs r).map fun o => (o.position + t, o.velocity)) :=
  (Multiset.coe_eq_coe.mp h.neighbors).symm

theorem target (h : SeesAlike R t rs r rs' r') (g : Vec ℝ) :
    g.add t - r'.position = g - r.position := by
  rw [h.position]
  exact add_sub_add_right_eq_sub g r.position t

/-- A smaller radius shows less of the same. -/
theorem narrow {R' : ℝ} (hR : R' ≤ R) (h : SeesAlike R t rs r rs' r') :
    SeesAlike R' t rs r rs' r' where
  position := h.position
  velocity := h.velocity
  neighbors := by
    have hdist : ∀ o : Robot ℝ, ‖o.position + t - r'.position‖ = ‖o.position - r.position‖ := by
      intro o
      rw [h.position]
      exact congrArg norm (add_sub_add_right_eq_sub o.position r.position t)
    have hfilter := h.perm.filter fun o => ‖o.1 - r'.position‖ < R'
    rw [List.filter_map, List.filter_map] at hfilter
    simp only [Function.comp_def, hdist] at hfilter
    rw [near_eq_filter hR, near_eq_filter hR]
    exact Multiset.coe_eq_coe.mpr hfilter.symm

/-- The two robots add up the same, whatever they add up of what they see. -/
theorem sum_map {M : Type} [AddCommMonoid M] (h : SeesAlike R t rs r rs' r')
    (f : Vec ℝ → Vec ℝ → M) :
    ((near R rs' r').map fun o => f o.position o.velocity).sum =
      ((near R rs r).map fun o => f (o.position + t) o.velocity).sum := by
  have hsum := (h.perm.map fun o => f o.1 o.2).sum_eq
  rwa [List.map_map, List.map_map] at hsum

theorem length_eq (h : SeesAlike R t rs r rs' r') :
    (near R rs' r').length = (near R rs r).length := by
  have hlen := h.perm.length_eq
  rwa [List.length_map, List.length_map] at hlen

/-! ### Potential Field -/

theorem fAtt_eq (h : SeesAlike R t rs r rs' r') (g : Vec ℝ) :
    PotentialField.fAtt (g.add t).x (g.add t).y r' = PotentialField.fAtt g.x g.y r := by
  rw [PotentialField.fAtt_eq, PotentialField.fAtt_eq, PotentialField.pull_eq,
    PotentialField.pull_eq, h.target]

theorem fRep_eq (h : SeesAlike 20 t rs r rs' r') :
    PotentialField.fRep rs' r' = PotentialField.fRep rs r := by
  rw [PotentialField.fRep_eq, PotentialField.fRep_eq, h.position]
  calc ((near 20 rs' r').map fun o => PotentialField.push (r.position.add t) o.position).sum
      = ((near 20 rs r).map fun o =>
          PotentialField.push (r.position.add t) (o.position + t)).sum :=
        h.sum_map fun p _ => PotentialField.push (r.position.add t) p
    _ = ((near 20 rs r).map fun o => PotentialField.push r.position o.position).sum := by
        simp only [Vec.add_eq, PotentialField.push_translate]

theorem potential (h : SeesAlike 20 t rs r rs' r') (g : Vec ℝ) :
    MovedAlike t (PotentialField.move g.x g.y rs r)
      (PotentialField.move (g.add t).x (g.add t).y rs' r') where
  velocity := h.velocity
  position := by
    rw [PotentialField.position_move, PotentialField.position_move, h.fAtt_eq, h.fRep_eq,
      h.position]
    exact add_right_comm _ _ _

/-! ### Boids -/

theorem seek_eq (h : SeesAlike R t rs r rs' r') (g : Vec ℝ) :
    Boids.seek (g.add t).x (g.add t).y r' = Boids.seek g.x g.y r := by
  have hx : (g.add t).x - r'.position.x = g.x - r.position.x := congrArg Vec.x (h.target g)
  have hy : (g.add t).y - r'.position.y = g.y - r.position.y := congrArg Vec.y (h.target g)
  unfold Boids.seek Boids.steer
  dsimp only
  rw [hx, hy, h.velocity]

/-- Everything but the sum of the positions is the same. -/
theorem neighbors_eq (h : SeesAlike 50 t rs r rs' r') :
    Boids.neighbors rs' r' = { Boids.neighbors rs r with
      coh := (Boids.neighbors rs r).coh + (near 50 rs r).length • t } := by
  have hsep : ((near 20 rs' r').map fun o => Boids.away r'.position o.position).sum =
      ((near 20 rs r).map fun o => Boids.away r.position o.position).sum := by
    rw [h.position]
    calc ((near 20 rs' r').map fun o => Boids.away (r.position.add t) o.position).sum
        = ((near 20 rs r).map fun o => Boids.away (r.position.add t) (o.position + t)).sum :=
          (h.narrow (by norm_num)).sum_map fun p _ => Boids.away (r.position.add t) p
      _ = ((near 20 rs r).map fun o => Boids.away r.position o.position).sum := by
          simp only [Boids.away, Vec.add_eq, add_sub_add_right_eq_sub]
  have hcoh : ((near 50 rs' r').map Robot.position).sum =
      ((near 50 rs r).map Robot.position).sum + (near 50 rs r).length • t :=
    calc ((near 50 rs' r').map Robot.position).sum
        = ((near 50 rs r).map fun o => o.position + t).sum := h.sum_map fun p _ => p
      _ = ((near 50 rs r).map Robot.position).sum + (near 50 rs r).length • t := by
          rw [List.sum_map_add, List.map_const', List.sum_replicate]
  rw [Boids.neighbors_eq, Boids.neighbors_eq]
  refine Boids.Neighbors.ext hsep (h.sum_map fun _ v => v) hcoh h.length_eq h.length_eq

/-- The mean of the positions moves along with the robot. -/
theorem cohesion_eq (h : SeesAlike 50 t rs r rs' r') :
    Boids.cohesion (Boids.neighbors rs' r') r' = Boids.cohesion (Boids.neighbors rs r) r := by
  have hcount : (Boids.neighbors rs r).countCoh = (near 50 rs r).length := by
    rw [Boids.neighbors_eq]
  rw [h.neighbors_eq, ← hcount]
  unfold Boids.cohesion Boids.steer
  dsimp only
  split_ifs with hpos
  · have hk : ((Boids.neighbors rs r).countCoh : ℝ) ≠ 0 := Nat.cast_ne_zero.mpr hpos.ne'
    generalize (Boids.neighbors rs r).countCoh = k at hk ⊢
    generalize (Boids.neighbors rs r).coh = c
    have hmean : Vec.sub ⟨(c + k • t).x / k, (c + k • t).y / k⟩ r'.position =
        Vec.sub ⟨c.x / k, c.y / k⟩ r.position := by
      rw [h.position, ← Nat.cast_smul_eq_nsmul ℝ]
      refine Vec.ext ?_ ?_
      · show (c + (k : ℝ) • t).x / k - (r.position.x + t.x) = c.x / k - r.position.x
        rw [Vec.add_x, Vec.smul_x, add_div, mul_div_cancel_left₀ _ hk, add_sub_add_right_eq_sub]
      · show (c + (k : ℝ) • t).y / k - (r.position.y + t.y) = c.y / k - r.position.y
        rw [Vec.add_y, Vec.smul_y, add_div, mul_div_cancel_left₀ _ hk, add_sub_add_right_eq_sub]
    rw [hmean, h.velocity]
  · -- nothing was added up
    rw [Nat.eq_zero_of_not_pos hpos, zero_smul, add_zero]

theorem accel_eq (h : SeesAlike 50 t rs r rs' r') (g : Vec ℝ) :
    Boids.accel (g.add t).x (g.add t).y rs' r' = Boids.accel g.x g.y rs r := by
  have hsep : Boids.separation (Boids.neighbors rs' r') r' =
      Boids.separation (Boids.neighbors rs r) r := by
    rw [h.neighbors_eq]
    unfold Boids.separation Boids.steer
    rw [h.velocity]
  have halign : Boids.alignment (Boids.neighbors rs' r') r' =
      Boids.alignment (Boids.neighbors rs r) r := by
    rw [h.neighbors_eq]
    unfold Boids.alignment Boids.steer
    rw [h.velocity]
  rw [Boids.accel_eq, Boids.accel_eq, hsep, halign, h.cohesion_eq, h.seek_eq]

theorem boids (h : SeesAlike 50 t rs r rs' r') (g : Vec ℝ) :
    MovedAlike t (Boids.move g.x g.y rs r) (Boids.move (g.add t).x (g.add t).y rs' r') := by
  have hvel : (Boids.move (g.add t).x (g.add t).y rs' r').velocity =
      (Boids.move g.x g.y rs r).velocity := by
    rw [Boids.velocity_move, Boids.velocity_move, h.velocity, h.accel_eq]
  refine ⟨hvel, ?_⟩
  rw [Boids.position_move, Boids.position_move, hvel, h.position]
  exact add_right_comm _ _ _

end SeesAlike

/-! ### Ticks -/

theorem getElem?_map_some {α β : Type} {l : List α} {i : ℕ} {a : α} (f : α → β)
    (h : l[i]? = some a) : (l.map f)[i]? = some (f a) := by
  rw [List.getElem?_map, h]
  rfl

/-- **Swarm ticks are local.** For any two lists of robots, a robot of each and a translation:
if the robots see alike within `50` px, a Boids tick moves them alike, and if they do within
`20` px, a Potential Field tick does, with targets that are the translation apart. -/
theorem step_local (rs rs' : List (Robot ℝ)) (i i' : ℕ) (r r' : Robot ℝ) (g t : Vec ℝ)
    (hr : rs[i]? = some r) (hr' : rs'[i']? = some r') :
    (SeesAlike Boids.visionRadius t rs r rs' r' →
      ∃ qs qs' q q', moveToBoids g.x g.y (.list rs) = some (.list qs) ∧
        moveToBoids (g.add t).x (g.add t).y (.list rs') = some (.list qs') ∧
        qs[i]? = some q ∧ qs'[i']? = some q' ∧ MovedAlike t q q') ∧
    (SeesAlike PotentialField.sepDist t rs r rs' r' →
      ∃ qs qs' q q', moveToPotentialField g.x g.y (.list rs) = some (.list qs) ∧
        moveToPotentialField (g.add t).x (g.add t).y (.list rs') = some (.list qs') ∧
        qs[i]? = some q ∧ qs'[i']? = some q' ∧ MovedAlike t q q') :=
  ⟨fun h => ⟨_, _, _, _, rfl, rfl, getElem?_map_some _ hr, getElem?_map_some _ hr', h.boids g⟩,
    fun h => ⟨_, _, _, _, rfl, rfl, getElem?_map_some _ hr, getElem?_map_some _ hr', h.potential g⟩⟩

/-- A robot that sees another in its own place, and what it sees from `7` px to the right with the
list the other way round. -/
theorem seesAlike_two (hR : 0 < R) :
    SeesAlike R ⟨7, 0⟩ [newRobot 0, newRobot 1] (newRobot 0)
      [⟨1, ⟨7, 0⟩, Vec.zero⟩, ⟨0, ⟨7, 0⟩, Vec.zero⟩] ⟨0, ⟨7, 0⟩, Vec.zero⟩ := by
  have hshift : (⟨7, 0⟩ : Vec ℝ) = Vec.zero.add ⟨7, 0⟩ :=
    Vec.ext (zero_add 7).symm (zero_add 0).symm
  have hclose : ∀ p : Vec ℝ, ‖p - p‖ < R := by
    intro p
    rwa [sub_self, norm_zero]
  have hnear : near R [newRobot 0, newRobot 1] (newRobot 0) = [newRobot 1] := by
    rw [near_eq]
    exact List.filter_cons_of_pos (decide_eq_true (hclose _))
  have hnear' : near R [⟨1, ⟨7, 0⟩, Vec.zero⟩, ⟨0, ⟨7, 0⟩, Vec.zero⟩] ⟨0, ⟨7, 0⟩, Vec.zero⟩ =
      [⟨1, ⟨7, 0⟩, Vec.zero⟩] := by
    rw [near_eq]
    exact List.filter_cons_of_pos (decide_eq_true (hclose _))
  refine ⟨hshift, rfl, ?_⟩
  rw [hnear, hnear']
  exact congrArg (fun p : Vec ℝ => Multiset.ofList [(p, (Vec.zero : Vec ℝ))]) hshift.symm

theorem step_local_two :
    (∃ (qs qs' : List (Robot ℝ)) (q q' : Robot ℝ),
      moveToBoids 3 4 (.list [newRobot 0, newRobot 1]) = some (.list qs) ∧
      moveToBoids (3 + 7) (4 + 0)
        (.list [⟨1, ⟨7, 0⟩, Vec.zero⟩, ⟨0, ⟨7, 0⟩, Vec.zero⟩]) = some (.list qs') ∧
      qs[0]? = some q ∧ qs'[1]? = some q' ∧ MovedAlike ⟨7, 0⟩ q q') ∧
    ∃ (qs qs' : List (Robot ℝ)) (q q' : Robot ℝ),
      moveToPotentialField 3 4 (.list [newRobot 0, newRobot 1]) = some (.list qs) ∧
      moveToPotentialField (3 + 7) (4 + 0)
        (.list [⟨1, ⟨7, 0⟩, Vec.zero⟩, ⟨0, ⟨7, 0⟩, Vec.zero⟩]) = some (.list qs') ∧
      qs[0]? = some q ∧ qs'[1]? = some q' ∧ MovedAlike ⟨7, 0⟩ q q' := by
  have hradius : (0 : ℝ) < Boids.visionRadius ∧ (0 : ℝ) < PotentialField.sepDist := by
    show (0 : ℝ) < 50 ∧ (0 : ℝ) < 20
    norm_num
  obtain ⟨hboids, hpotential⟩ := step_local [newRobot 0, newRobot 1]
    [⟨1, ⟨7, 0⟩, Vec.zero⟩, ⟨0, ⟨7, 0⟩, Vec.zero⟩] 0 1 (newRobot 0) ⟨0, ⟨7, 0⟩, Vec.zero⟩ ⟨3, 4⟩
    ⟨7, 0⟩ rfl rfl
  exact ⟨hboids (seesAlike_two hradius.1), hpotential (seesAlike_two hradius.2)⟩

end SwarmBase
