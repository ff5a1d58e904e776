import SwarmBase.Ui.Neighbors
import Mathlib.Data.List.Range

/-!
# Robots on top of each other

Every robot starts at `{ 0, 0 }` with velocity zero. Both swarm algorithms push a robot away from
its neighbours only at a distance `d > 0`, so two robots at one point do not push each other, and
everything else that moves them is the same for both: two robots with the same position have the
same position after a Potential Field tick, and two with the same position and velocity have the
same position and velocity after any tick (`coincident_stay`). Robots registered before the first
tick are never separated.

The loop of a robot skips the robot itself. That two coincident robots get the same total is the
symmetry of `map_others_perm`: each counts the other where the other counts it. It needs
exact arithmetic, since the two loops add up in different orders.
-/

namespace SwarmBase

open Framework

/-! ### Swarms -/

/-- A registration or a tick of one of the two algorithms with some target. -/
inductive SwarmAction (K : Type) where
  | register
  | boids (target : Vec K)
  | potential (target : Vec K)

section Swarms

variable {K : Type} [JsArith K]

/-- The updater of the `robots` state. -/
def SwarmAction.updater : SwarmAction K → RobotsState K → Option (RobotsState K)
  | .register => appendRobot
  | .boids t => moveToBoids t.x t.y
  | .potential t => moveToPotentialField t.x t.y

/-- What the updater makes of a list. -/
def SwarmAction.apply (rs : List (Robot K)) : SwarmAction K → List (Robot K)
  | .register => rs ++ [newRobot rs.length]
  | .boids t => rs.map (Boids.move t.x t.y rs)
  | .potential t => rs.map (PotentialField.move t.x t.y rs)

theorem SwarmAction.updater_list (a : SwarmAction K) (rs : List (Robot K)) :
    a.updater (.list rs) = some (.list (a.apply rs)) := by
  cases a <;> rfl

/-- The robots after some registrations and ticks, from the empty list on. -/
def swarm (as : List (SwarmAction K)) : List (Robot K) := as.foldl SwarmAction.apply []

theorem swarm_concat (as : List (SwarmAction K)) (a : SwarmAction K) :
    swarm (as ++ [a]) = a.apply (swarm as) := by
  unfold swarm
  rw [List.foldl_append]
  rfl

/-- Ids are positions in the list. -/
theorem map_id_swarm (as : List (SwarmAction K)) :
    (swarm as).map Robot.id = List.range (swarm as).length := by
  -- a registration appends the next id, a tick keeps them
  induction as using List.reverseRecOn with
  | nil => rfl
  | append_singleton as a ih =>
    rw [swarm_concat]
    cases a with
    | register =>
      change (swarm as ++ [newRobot (swarm as).length]).map Robot.id = _
      rw [List.map_append, ih, SwarmAction.apply, List.length_append, List.length_singleton,
        List.range_succ]
      rfl
    | boids t =>
      rw [SwarmAction.apply, List.map_map, List.length_map]
      exact ih
    | potential t =>
      rw [SwarmAction.apply, List.map_map, List.length_map]
      exact ih

theorem nodup_id_swarm (as : List (SwarmAction K)) : ((swarm as).map Robot.id).Nodup := by
  rw [map_id_swarm]
  exact List.nodup_range

/-- The robots with ids `i` and `j` have the same position. -/
def SamePosition (rs : List (Robot K)) (i j : ℕ) : Prop :=
  ∃ r ∈ rs, ∃ r' ∈ rs, r.id = i ∧ r'.id = j ∧ r.position = r'.position

/-- The robots with ids `i` and `j` have the same position and velocity. -/
def Together (rs : List (Robot K)) (i j : ℕ) : Prop :=
  ∃ r ∈ rs, ∃ r' ∈ rs, r.id = i ∧ r'.id = j ∧ r.position = r'.position ∧ r.velocity = r'.velocity

end Swarms

/-! ### Potential Field -/

section Exact

variable {rs : List (Robot ℝ)} {r r' : Robot ℝ}

/-- Robots at one point are repelled in the same way. -/
theorem PotentialField.fRep_eq_of_eq (hnodup : (rs.map Robot.id).Nodup) (hr : r ∈ rs)
    (hr' : r' ∈ rs) (hpos : r.position = r'.position) : fRep rs r = fRep rs r' := by
  have hperm := map_others_perm hnodup hr hr' hpos
  rw [fRep_eq_others, fRep_eq_others, ← hpos]
  have hsum := (hperm.map (push r.position)).sum_eq
  rwa [List.map_map, List.map_map] at hsum

theorem PotentialField.position_move_eq (cx cy : ℝ) (hnodup : (rs.map Robot.id).Nodup)
    (hr : r ∈ rs) (hr' : r' ∈ rs) (hpos : r.position = r'.position) :
    (move cx cy rs r).position = (move cx cy rs r').position := by
  have hatt : fAtt cx cy r = fAtt cx cy r' := by
    unfold fAtt
    rw [hpos]
  have hrep : fRep rs r = fRep rs r' := fRep_eq_of_eq hnodup hr hr' hpos
  -- the velocity plays no part
  unfold move
  dsimp only
  rw [hatt, hrep, hpos]

/-! ### Boids -/

namespace Boids

/-- Robots at one point with one velocity see the same neighbours. -/
theorem neighbors_eq_of_eq (hnodup : (rs.map Robot.id).Nodup) (hr : r ∈ rs) (hr' : r' ∈ rs)
    (hpos : r.position = r'.position) (hvel : r.velocity = r'.velocity) :
    neighbors rs r = neighbors rs r' := by
  have hperm := map_others_perm (v := fun o : Robot ℝ => (o.position, o.velocity)) hnodup hr hr'
    (Prod.ext hpos hvel)
  rw [neighbors_eq_others, neighbors_eq_others, ← hpos]
  have hsum := (hperm.map (contribution r.position)).sum_eq
  rwa [List.map_map, List.map_map] at hsum

theorem move_eq (cx cy : ℝ) (hnodup : (rs.map Robot.id).Nodup) (hr : r ∈ rs) (hr' : r' ∈ rs)
    (hpos : r.position = r'.position) (hvel : r.velocity = r'.velocity) :
    (move cx cy rs r).position = (move cx cy rs r').position ∧
      (move cx cy rs r).velocity = (move cx cy rs r').velocity := by
  have hn : neighbors rs r = neighbors rs r' := neighbors_eq_of_eq hnodup hr hr' hpos hvel
  -- all four steering terms are functions of the neighbours, the position and the velocity
  have haccel : accel cx cy rs r = accel cx cy rs r' := by
    unfold accel separation alignment cohesion seek steer
    rw [hn, hpos, hvel]
  unfold move
  dsimp only
  rw [haccel, hpos, hvel]
  exact ⟨rfl, rfl⟩

end Boids

/-! ### Whole runs -/

/-- **One Potential Field tick.** -/
theorem SamePosition.potential {i j : ℕ} (hnodup : (rs.map Robot.id).Nodup)
    (h : SamePosition rs i j) (t : Vec ℝ) :
    SamePosition ((SwarmAction.potential t).apply rs) i j := by
  obtain ⟨r, hr, r', hr', hi, hj, hpos⟩ := h
  exact ⟨_, List.mem_map_of_mem hr, _, List.mem_map_of_mem hr', hi, hj,
    PotentialField.position_move_eq t.x t.y hnodup hr hr' hpos⟩

/-- **One registration or tick.** -/
theorem Together.apply {i j : ℕ} (hnodup : (rs.map Robot.id).Nodup) (h : Together rs i j)
    (a : SwarmAction ℝ) : Together (a.apply rs) i j := by
  obtain ⟨r, hr, r', hr', hi, hj, hpos, hvel⟩ := h
  cases a with
  | register =>
    exact ⟨r, List.mem_append_left _ hr, r', List.mem_append_left _ hr', hi, hj, hpos, hvel⟩
  | boids t =>
    obtain ⟨hpos', hvel'⟩ := Boids.move_eq t.x t.y hnodup hr hr' hpos hvel
    exact ⟨_, List.mem_map_of_mem hr, _, List.mem_map_of_mem hr', hi, hj, hpos', hvel'⟩
  | potential t =>
    have hpos' := PotentialField.position_move_eq t.x t.y hnodup hr hr' hpos
    exact ⟨_, List.mem_map_of_mem hr, _, List.mem_map_of_mem hr', hi, hj, hpos', hvel⟩

theorem Together.run {as : List (SwarmAction ℝ)} {i j : ℕ} (h : Together (swarm as) i j)
    (bs : List (SwarmAction ℝ)) : Together (swarm (as ++ bs)) i j := by
  induction bs using List.reverseRecOn with
  | nil => rwa [List.append_nil]
  | append_singleton bs b ih =>
    rw [← List.append_assoc, swarm_concat]
    exact ih.apply (nodup_id_swarm _) b

theorem swarm_registrations (n : ℕ) :
    swarm (List.replicate n .register) = (List.range n).map (newRobot (K := ℝ)) := by
  induction n with
  | zero => rfl
  | succ n ih =>
    rw [List.replicate_succ', swarm_concat, ih, SwarmAction.apply, List.length_map,
      List.length_range, List.range_succ, List.map_append]
    rfl

/-- All robots registered before the first tick are in one place. -/
theorem together_of_registrations {n i j : ℕ} (hi : i < n) (hj : j < n) :
    Together (swarm (K := ℝ) (List.replicate n .register)) i j := by
  rw [swarm_registrations]
  exact ⟨newRobot i, List.mem_map_of_mem (List.mem_range.mpr hi), newRobot j,
    List.mem_map_of_mem (List.mem_range.mpr hj), rfl, rfl, rfl, rfl⟩

/-- **Coincident robots are not separated.** In every robot list reached from the empty one by
registrations and ticks: two robots with the same position have the same position after a
Potential Field tick with any target; two with the same position and velocity have the same
position and velocity after a Boids tick, and after any further registrations and ticks. So the
robots registered before the first tick move as one for ever. -/
theorem coincident_stay (as : List (SwarmAction ℝ)) :
    (∀ (t : Vec ℝ) rs' i j,
      moveToPotentialField t.x t.y (.list (swarm as)) = some (.list rs') →
        SamePosition (swarm as) i j → SamePosition rs' i j) ∧
    (∀ (t : Vec ℝ) rs' i j, moveToBoids t.x t.y (.list (swarm as)) = some (.list rs') →
      Together (swarm as) i j → Together rs' i j) ∧
    (∀ bs i j, Together (swarm as) i j → Together (swarm (as ++ bs)) i j) ∧
    (∀ n bs i j, as = List.replicate n .register ++ bs → i < n → j < n →
      Together (swarm as) i j) := by
  have hnodup := nodup_id_swarm as
  refine ⟨?_, ?_, fun bs i j h => h.run bs, ?_⟩
  · intro t rs' i j htick h
    obtain rfl := RobotsState.list.inj (Option.some.inj htick)
    exact h.potential hnodup t
  · intro t rs' i j htick h
    obtain rfl := RobotsState.list.inj (Option.some.inj htick)
    exact h.apply hnodup (.boids t)
  · rintro n bs i j rfl hi hj
    exact (together_of_registrations hi hj).run bs

/-- Two robots, then a Boids tick to `{ 3, 4 }`. -/
theorem coincident_stay_two :
    Together (swarm (K := ℝ) [.register, .register, .boids ⟨3, 4⟩]) 0 1 :=
  (coincident_stay [.register, .register, .boids ⟨3, 4⟩]).2.2.2 2 [.boids ⟨3, 4⟩] 0 1 rfl
    (by decide) (by decide)

/-- Two robots that were just registered are in one place after a tick of either algorithm. -/
theorem coincident_not_separated :
    ¬ ∀ (as : List (SwarmAction ℝ)) (a : SwarmAction ℝ) rs' i j, a ≠ .register →
      2 ≤ (swarm as).length → a.updater (.list (swarm as)) = some (.list rs') → i ≠ j →
        SamePosition (swarm as) i j → ¬ SamePosition rs' i j := by
  intro h
  have htogether : Together (swarm (K := ℝ) [.register, .register]) 0 1 :=
    together_of_registrations (n := 2) (by decide) (by decide)
  obtain ⟨r, hr, r', hr', hi, hj, hpos, -⟩ := htogether.run [.boids ⟨0, 0⟩]
  -- at the target nothing attracts them, and still nothing separates them
  refine h [.register, .register] (.boids ⟨0, 0⟩) _ 0 1 nofun (Nat.le_refl 2)
    (SwarmAction.updater_list _ _) (by decide) ?_ ⟨r, hr, r', hr', hi, hj, hpos⟩
  obtain ⟨r, hr, r', hr', hi, hj, hpos, -⟩ := htogether
  exact ⟨r, hr, r', hr', hi, hj, hpos⟩

end Exact
end SwarmBase
