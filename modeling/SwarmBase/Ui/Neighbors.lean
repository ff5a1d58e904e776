import SwarmBase.Framework.Others
import SwarmBase.Ui.Plane

/-!
# The neighbour loops as sums

Both swarm algorithms run a loop over all robots for each robot, which skips the robot itself. In
exact arithmetic the loop is a sum over the robots it does not skip, so nothing depends on the
order of the list: the repulsion of a Potential Field tick is the sum of `PotentialField.push`
(`PotentialField.fRep_eq`), and the accumulators of a Boids tick are sums over the robots within
the vision and the separation radius (`Boids.neighbors_eq`).
-/

namespace SwarmBase

open Framework

/-- The robots with another id than `r` that are closer to it than `radius`. -/
def near {K : Type} [JsArith K] (radius : K) (rs : List (Robot K)) (r : Robot K) :
    List (Robot K) :=
  rs.filter fun o => o.id ≠ r.id ∧ (o.position.sub r.position).norm < radius

variable {rs : List (Robot ℝ)} {r : Robot ℝ} {p o t : Vec ℝ}

theorem near_eq (radius : ℝ) (rs : List (Robot ℝ)) (r : Robot ℝ) :
    near radius rs r =
      (others Robot.id r.id rs).filter fun o => ‖o.position - r.position‖ < radius := by
  unfold near others
  rw [List.filter_filter]
  refine List.filter_congr fun o _ => ?_
  rw [Vec.norm_eq, Vec.sub_eq, Bool.decide_and, Bool.and_comm]

/-- Of the robots within a radius, those within a smaller one. -/
theorem near_eq_filter {a b : ℝ} (hab : a ≤ b) (rs : List (Robot ℝ)) (r : Robot ℝ) :
    near a rs r = (near b rs r).filter fun o => ‖o.position - r.position‖ < a := by
  rw [near_eq, near_eq, List.filter_filter]
  refine List.filter_congr fun o _ => ?_
  rw [← Bool.decide_and, decide_eq_decide]
  exact ⟨fun h => ⟨h, h.trans_le hab⟩, fun h => h.1⟩

/-! ### Potential Field -/

namespace PotentialField

/-- The repulsion of a robot at `p` from a neighbour at `o`. -/
noncomputable def push (p o : Vec ℝ) : Vec ℝ :=
  let rx := p.x - o.x
  let ry := p.y - o.y
  let d := JsArith.hypot rx ry
  if 0 < d ∧ d < sepDist then
    let str := repGain / (d * d)
    ⟨rx / d * str, ry / d * str⟩
  else Vec.zero

theorem push_eq (p o : Vec ℝ) :
    push p o = if ‖p - o‖ < 20 then (300 / ‖p - o‖ ^ 3) • (p - o) else 0 := by
  unfold push
  dsimp only
  rw [Vec.hypot_sub]
  change (if 0 < ‖p - o‖ ∧ ‖p - o‖ < 20 then _ else (0 : Vec ℝ)) = _
  by_cases hpos : 0 < ‖p - o‖
  · refine if_congr (and_iff_right hpos) (Vec.ext ?_ ?_) rfl
    · change (p.x - o.x) / ‖p - o‖ * (300 / (‖p - o‖ * ‖p - o‖)) = _
      rw [Vec.smul_x, Vec.sub_x]
      field_simp
    · change (p.y - o.y) / ‖p - o‖ * (300 / (‖p - o‖ * ‖p - o‖)) = _
      rw [Vec.smul_y, Vec.sub_y]
      field_simp
  · -- at one point, where the code has a guard
    have hzero : p - o = 0 := norm_eq_zero.mp (le_antisymm (not_lt.mp hpos) (norm_nonneg _))
    rw [if_neg fun h => hpos h.1, hzero, smul_zero, ite_self]

theorem push_of_far (h : ¬ ‖p - o‖ < 20) : push p o = 0 := by
  rw [push_eq, if_neg h]

@[simp] theorem push_self (p : Vec ℝ) : push p p = 0 := by
  rw [push_eq, sub_self, smul_zero, ite_self]

/-- Neighbours push each other in opposite directions. -/
theorem push_swap (p o : Vec ℝ) : push p o = -push o p := by
  rw [push_eq, push_eq, norm_sub_rev o p, ← neg_sub o p, smul_neg]
  split_ifs
  · rfl
  · exact neg_zero.symm

theorem push_translate (p o t : Vec ℝ) : push (p + t) (o + t) = push p o := by
  rw [push_eq, push_eq, add_sub_add_right_eq_sub]

theorem repel_eq (r : Robot ℝ) (acc : Vec ℝ) (o : Robot ℝ) :
    repel r acc o =
      if o.id = r.id then acc else acc + push r.position o.position := by
  unfold repel push
  dsimp only
  split_ifs
  · rfl
  · rfl
  · exact (add_zero acc).symm

theorem fRep_eq_others (rs : List (Robot ℝ)) (r : Robot ℝ) :
    fRep rs r = ((others Robot.id r.id rs).map fun o => push r.position o.position).sum := by
  unfold fRep
  rw [funext₂ (repel_eq r)]
  exact foldl_skip_add Robot.id (fun o => push r.position o.position) r.id rs

/-- The repulsion of a robot is the sum of the pushes of its neighbours. -/
theorem fRep_eq (rs : List (Robot ℝ)) (r : Robot ℝ) :
    fRep rs r = ((near 20 rs r).map fun o => push r.position o.position).sum := by
  rw [fRep_eq_others, near_eq, ← sum_map_ite_zero]
  congr 1
  refine List.map_congr_left fun o _ => ?_
  split_ifs with hnear
  · rfl
  · rw [norm_sub_rev] at hnear
    exact push_of_far hnear

/-- What the updater makes of one robot, in the plane. -/
theorem position_move (cx cy : ℝ) (rs : List (Robot ℝ)) (r : Robot ℝ) :
    (move cx cy rs r).position = r.position + (0.8 : ℝ) • (fAtt cx cy r + fRep rs r) := by
  refine Vec.ext ?_ ?_
  · rw [Vec.add_x, Vec.smul_x, mul_comm]
    rfl
  · rw [Vec.add_y, Vec.smul_y, mul_comm]
    rfl

end PotentialField

/-! ### Boids -/

namespace Boids

/-- Componentwise sum of two accumulators. -/
noncomputable def Neighbors.add (m n : Neighbors ℝ) : Neighbors ℝ where
  sep := m.sep.add n.sep
  align := m.align.add n.align
  coh := m.coh.add n.coh
  countAlign := m.countAlign + n.countAlign
  countCoh := m.countCoh + n.countCoh

theorem Neighbors.ext {m n : Neighbors ℝ} (hsep : m.sep = n.sep) (halign : m.align = n.align)
    (hcoh : m.coh = n.coh) (hcountAlign : m.countAlign = n.countAlign)
    (hcountCoh : m.countCoh = n.countCoh) : m = n := by
  cases m; cases n; congr

noncomputable instance : Zero (Neighbors ℝ) := ⟨Neighbors.none⟩

noncomputable instance : Add (Neighbors ℝ) := ⟨Neighbors.add⟩

noncomputable instance : AddCommMonoid (Neighbors ℝ) where
  nsmul := nsmulRec
  add_assoc m n k := Neighbors.ext (add_assoc m.sep n.sep k.sep) (add_assoc m.align n.align k.align)
    (add_assoc m.coh n.coh k.coh) (add_assoc m.countAlign n.countAlign k.countAlign)
    (add_assoc m.countCoh n.countCoh k.countCoh)
  zero_add m := Neighbors.ext (zero_add m.sep) (zero_add m.align) (zero_add m.coh)
    (zero_add m.countAlign) (zero_add m.countCoh)
  add_zero m := Neighbors.ext (add_zero m.sep) (add_zero m.align) (add_zero m.coh)
    (add_zero m.countAlign) (add_zero m.countCoh)
  add_comm m n := Neighbors.ext (add_comm m.sep n.sep) (add_comm m.align n.align)
    (add_comm m.coh n.coh) (add_comm m.countAlign n.countAlign) (add_comm m.countCoh n.countCoh)

/-- What a neighbour at `o.1` with velocity `o.2` adds to the accumulators of a robot at `p`. -/
noncomputable def contribution (p : Vec ℝ) (o : Vec ℝ × Vec ℝ) : Neighbors ℝ :=
  let ox := o.1.x - p.x
  let oy := o.1.y - p.y
  let d := JsArith.hypot ox oy
  { sep := if 0 < d ∧ d < sepRadius then ⟨-(ox / d), -(oy / d)⟩ else Vec.zero
    align := if d < visionRadius then o.2 else Vec.zero
    coh := if d < visionRadius then o.1 else Vec.zero
    countAlign := if d < visionRadius then 1 else 0
    countCoh := if d < visionRadius then 1 else 0 }

theorem gather_eq (r : Robot ℝ) (acc : Neighbors ℝ) (o : Robot ℝ) :
    gather r acc o =
      if o.id = r.id then acc
      else acc + contribution r.position (o.position, o.velocity) := by
  change _ = if o.id = r.id then acc else acc.add _
  unfold gather contribution Neighbors.add
  dsimp only
  simp only [Vec.zero_eq, Vec.add_eq]
  split_ifs
  · rfl
  · -- within both radii
    refine Neighbors.ext ?_ rfl rfl rfl rfl
    exact Vec.ext (sub_eq_add_neg _ _) (sub_eq_add_neg _ _)
  · -- within the separation radius only
    simp only [add_zero]
    refine Neighbors.ext ?_ rfl rfl rfl rfl
    exact Vec.ext (sub_eq_add_neg _ _) (sub_eq_add_neg _ _)
  · -- seen, but not separated from
    simp only [add_zero]
  · simp only [add_zero]

theorem neighbors_eq_others (rs : List (Robot ℝ)) (r : Robot ℝ) :
    neighbors rs r = ((others Robot.id r.id rs).map fun o =>
      contribution r.position (o.position, o.velocity)).sum := by
  unfold neighbors
  rw [funext₂ (gather_eq r)]
  exact foldl_skip_add Robot.id (fun o => contribution r.position (o.position, o.velocity)) r.id rs

/-- The direction a robot at `p` is separated from a neighbour at `o` in. -/
noncomputable def away (p o : Vec ℝ) : Vec ℝ := ‖p - o‖⁻¹ • (p - o)

theorem contribution_eq (p : Vec ℝ) (o : Vec ℝ × Vec ℝ) :
    contribution p o =
      { sep := if ‖o.1 - p‖ < 20 then away p o.1 else 0
        align := if ‖o.1 - p‖ < 50 then o.2 else 0
        coh := if ‖o.1 - p‖ < 50 then o.1 else 0
        countAlign := if ‖o.1 - p‖ < 50 then 1 else 0
        countCoh := if ‖o.1 - p‖ < 50 then 1 else 0 } := by
  unfold contribution
  dsimp only
  rw [Vec.hypot_sub]
  refine Neighbors.ext ?_ rfl rfl rfl rfl
  change (if 0 < ‖o.1 - p‖ ∧ ‖o.1 - p‖ < 20 then _ else (0 : Vec ℝ)) = _
  by_cases hpos : 0 < ‖o.1 - p‖
  · refine if_congr (and_iff_right hpos) ?_ rfl
    unfold away
    rw [norm_sub_rev p]
    refine Vec.ext ?_ ?_
    · change -((o.1.x - p.x) / ‖o.1 - p‖) = _
      rw [Vec.smul_x, Vec.sub_x]
      ring
    · change -((o.1.y - p.y) / ‖o.1 - p‖) = _
      rw [Vec.smul_y, Vec.sub_y]
      ring
  · -- at one point, where the code has a guard
    have hzero : p - o.1 = 0 := by
      rw [norm_sub_rev] at hpos
      exact norm_eq_zero.mp (le_antisymm (not_lt.mp hpos) (norm_nonneg _))
    unfold away
    rw [if_neg fun h => hpos h.1, hzero, smul_zero, ite_self]

theorem sum_neighbors {α : Type} (f : α → Neighbors ℝ) (l : List α) :
    (l.map f).sum =
      { sep := (l.map fun a => (f a).sep).sum
        align := (l.map fun a => (f a).align).sum
        coh := (l.map fun a => (f a).coh).sum
        countAlign := (l.map fun a => (f a).countAlign).sum
        countCoh := (l.map fun a => (f a).countCoh).sum } := by
  induction l with
  | nil => rfl
  | cons a l ih =>
    simp only [List.map_cons, List.sum_cons]
    rw [ih]
    rfl

/-- **The accumulators of the neighbour loop.** Separation sums over the robots within the
separation radius, the others over those within the vision radius. -/
theorem neighbors_eq (rs : List (Robot ℝ)) (r : Robot ℝ) :
    neighbors rs r =
      { sep := ((near 20 rs r).map fun o => away r.position o.position).sum
        align := ((near 50 rs r).map Robot.velocity).sum
        coh := ((near 50 rs r).map Robot.position).sum
        countAlign := (near 50 rs r).length
        countCoh := (near 50 rs r).length } := by
  have hcount : ((others Robot.id r.id rs).map fun o =>
      if ‖o.position - r.position‖ < 50 then 1 else 0).sum = (near 50 rs r).length := by
    rw [near_eq, sum_map_ite_zero, List.map_const', List.sum_replicate, smul_eq_mul, mul_one]
  rw [neighbors_eq_others, sum_neighbors]
  simp only [contribution_eq]
  rw [hcount, near_eq, near_eq, ← sum_map_ite_zero, ← sum_map_ite_zero, ← sum_map_ite_zero]

end Boids

end SwarmBase
