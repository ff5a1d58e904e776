import SwarmBase.Ui.Plane

/-!
# Divisions

The movement functions once more, with every division replaced by `div?`, which fails if the
divisor is zero. A checked function makes the divisions of the function it is named after, behind
the same guards and in the same order, so it has a result exactly if none of them is by zero.

* `ticks_divide` — at the reals no tick fails: the checked updaters have a result for every list,
  and it is the one of the updaters.
-/

namespace SwarmBase

section Checked

variable {K : Type} [JsArith K]

/-- Division, if the divisor is not zero. -/
def div? (a b : K) : Option K := if b == 0 then none else some (a / b)

/-! ### `lib/utils.ts` -/

def Vec.normalize? (a : Vec K) : Option (Vec K) := do
  let n := if falsy a.norm then 1 else a.norm
  let x ← div? a.x n
  let y ← div? a.y n
  return ⟨x, y⟩

def Vec.limit? (v : Vec K) (max : K) : Option (Vec K) :=
  let n := v.norm
  if max < n then do
    let s ← div? max n
    return v.scale s
  else some v

/-! ### `directSeek` -/

def DirectSeek.move? (cx cy : K) (r : Robot K) : Option (Robot K) := do
  let dx := cx - r.position.x
  let dy := cy - r.position.y
  let d := dist cx cy r
  let ux ← div? dx d
  let uy ← div? dy d
  let vx := ux * maxSpeed
  let vy := uy * maxSpeed
  return { r with velocity := ⟨vx, vy⟩, position := ⟨r.position.x + vx, r.position.y + vy⟩ }

/-- No result if a division fails, and otherwise that of the updater, which may throw. -/
def directSeek? (cx cy : K) : RobotsState K → Option (Option (RobotsState K))
  | .list [] => some none
  | .list (r :: _) =>
    if DirectSeek.dist cx cy r == 0 then some (some (.robot r))
    else do
      let r' ← DirectSeek.move? cx cy r
      return some (.list [r'])
  | .robot _ => some none

/-! ### `moveToPotentialField` -/

namespace PotentialField

def fAtt? (cx cy : K) (r : Robot K) : Option (Vec K) :=
  let dx := cx - r.position.x
  let dy := cy - r.position.y
  let distToGoal := JsArith.hypot dx dy
  if stoppingDist < distToGoal then do
    let dirX ← div? dx distToGoal
    let dirY ← div? dy distToGoal
    let speed := JsArith.min (distToGoal * attGain) maxSpeed
    return ⟨dirX * speed, dirY * speed⟩
  else some Vec.zero

def repel? (r : Robot K) (fRep : Vec K) (o : Robot K) : Option (Vec K) :=
  if o.id = r.id then some fRep
  else
    let rx := r.position.x - o.position.x
    let ry := r.position.y - o.position.y
    let d := JsArith.hypot rx ry
    if 0 < d ∧ d < sepDist then do
      let str ← div? repGain (d * d)
      let ux ← div? rx d
      let uy ← div? ry d
      return ⟨fRep.x + ux * str, fRep.y + uy * str⟩
    else some fRep

def fRep? (arr : List (Robot K)) (r : Robot K) : Option (Vec K) := arr.foldlM (repel? r) Vec.zero

def move? (cx cy : K) (arr : List (Robot K)) (r : Robot K) : Option (Robot K) := do
  let att ← fAtt? cx cy r
  let rep ← fRep? arr r
  let vx := (att.x + rep.x) * damping
  let vy := (att.y + rep.y) * damping
  return { r with position := ⟨r.position.x + vx, r.position.y + vy⟩ }

end PotentialField

def moveToPotentialField? (cx cy : K) : RobotsState K → Option (Option (RobotsState K))
  | .list rs => do
    let rs' ← rs.mapM (PotentialField.move? cx cy rs)
    return some (.list rs')
  | .robot _ => some none

/-! ### `moveToBoids` -/

namespace Boids

def steer? (desired : Vec K) (r : Robot K) : Option (Vec K) :=
  (desired.sub r.velocity).limit? maxForce

def seek? (cx cy : K) (r : Robot K) : Option (Vec K) :=
  let dx := cx - r.position.x
  let dy := cy - r.position.y
  let dGoal := JsArith.hypot dx dy
  if 0 < dGoal then do
    let ux ← div? dx dGoal
    let uy ← div? dy dGoal
    steer? ⟨ux * maxSpeed, uy * maxSpeed⟩ r
  else some Vec.zero

def gather? (r : Robot K) (acc : Neighbors K) (o : Robot K) : Option (Neighbors K) :=
  if o.id = r.id then some acc
  else
    let ox := o.position.x - r.position.x
    let oy := o.position.y - r.position.y
    let d := JsArith.hypot ox oy
    let acc :=
      if d < visionRadius then
        { acc with
          align := acc.align.add o.velocity
          countAlign := acc.countAlign + 1
          coh := acc.coh.add o.position
          countCoh := acc.countCoh + 1 }
      else acc
    if 0 < d ∧ d < sepRadius then do
      let ux ← div? (o.position.x - r.position.x) d
      let uy ← div? (o.position.y - r.position.y) d
      return { acc with sep := ⟨acc.sep.x - ux, acc.sep.y - uy⟩ }
    else some acc

def neighbors? (rs : List (Robot K)) (r : Robot K) : Option (Neighbors K) :=
  rs.foldlM (gather? r) Neighbors.none

def separation? (n : Neighbors K) (r : Robot K) : Option (Vec K) := do
  let dir ← n.sep.normalize?
  steer? (dir.scale maxSpeed) r

def alignment? (n : Neighbors K) (r : Robot K) : Option (Vec K) :=
  if 0 < n.countAlign then do
    let x ← div? n.align.x n.countAlign
    let y ← div? n.align.y n.countAlign
    let dir ← Vec.normalize? ⟨x, y⟩
    steer? (dir.scale maxSpeed) r
  else some n.align

def cohesion? (n : Neighbors K) (r : Robot K) : Option (Vec K) :=
  if 0 < n.countCoh then do
    let x ← div? n.coh.x n.countCoh
    let y ← div? n.coh.y n.countCoh
    let dir ← (Vec.sub ⟨x, y⟩ r.position).normalize?
    steer? (dir.scale maxSpeed) r
  else some n.coh

def accel? (cx cy : K) (rs : List (Robot K)) (r : Robot K) : Option (Vec K) := do
  let goal ← seek? cx cy r
  let n ← neighbors? rs r
  let sep ← separation? n r
  let align ← alignment? n r
  let coh ← cohesion? n r
  return ⟨sep.x * sepWeight + align.x * alignWeight + coh.x * cohesionWeight + goal.x * seekWeight,
    sep.y * sepWeight + align.y * alignWeight + coh.y * cohesionWeight + goal.y * seekWeight⟩

def move? (cx cy : K) (rs : List (Robot K)) (r : Robot K) : Option (Robot K) := do
  let a ← accel? cx cy rs r
  let v ← (r.velocity.add a).limit? maxSpeed
  return { r with velocity := v, position := r.position.add v }

end Boids

def moveToBoids? (cx cy : K) : RobotsState K → Option (Option (RobotsState K))
  | .list rs => do
    let rs' ← rs.mapM (Boids.move? cx cy rs)
    return some (.list rs')
  | .robot _ => some none

end Checked

/-! ### At the reals -/

theorem mapM_eq_some {α β : Type} {f : α → Option β} {g : α → β} (h : ∀ a, f a = some (g a))
    (l : List α) : l.mapM f = some (l.map g) := by
  rw [funext h]
  exact List.mapM_pure

theorem foldlM_eq_some {α β : Type} {f : β → α → Option β} {g : β → α → β}
    (h : ∀ b a, f b a = some (g b a)) (b : β) (l : List α) : l.foldlM f b = some (l.foldl g b) := by
  rw [funext₂ h]
  exact List.foldlM_pure

theorem div?_eq {a b : ℝ} (hb : b ≠ 0) : div? a b = some (a / b) :=
  if_neg (by rwa [beq_iff_eq])

/-- The length is replaced by `1` where it is zero. -/
theorem Vec.normalize?_eq (a : Vec ℝ) : a.normalize? = some a.normalize := by
  have hn : (if falsy a.norm then 1 else a.norm) ≠ 0 := by
    split_ifs with hfalsy
    · exact one_ne_zero
    · exact mt (Vec.falsy_iff _).mpr hfalsy
  unfold normalize?
  dsimp only
  rw [div?_eq hn, div?_eq hn]
  rfl

theorem Vec.limit?_eq (v : Vec ℝ) {max : ℝ} (hmax : 0 ≤ max) :
    v.limit? max = some (v.limit max) := by
  unfold limit? limit
  dsimp only
  split_ifs with hlong
  · rw [div?_eq (hmax.trans_lt hlong).ne']
    rfl
  · rfl

/-! ### `directSeek` -/

/-- Checked before the division. -/
theorem directSeek?_eq (cx cy : ℝ) (s : RobotsState ℝ) :
    directSeek? cx cy s = some (directSeek cx cy s) := by
  match s with
  | .list [] => rfl
  | .robot r => rfl
  | .list (r :: rest) =>
    unfold directSeek? directSeek
    dsimp only
    split_ifs with hat
    · rfl
    · have hd : DirectSeek.dist cx cy r ≠ 0 := by rwa [beq_iff_eq] at hat
      unfold DirectSeek.move?
      dsimp only
      rw [div?_eq hd, div?_eq hd]
      rfl

/-! ### `moveToPotentialField` -/

namespace PotentialField

theorem fAtt?_eq (cx cy : ℝ) (r : Robot ℝ) : fAtt? cx cy r = some (fAtt cx cy r) := by
  unfold fAtt? fAtt
  dsimp only
  split_ifs with hfar
  · have hd : JsArith.hypot (cx - r.position.x) (cy - r.position.y) ≠ 0 := by
      have hstop : (0 : ℝ) < stoppingDist := by
        show (0 : ℝ) < 5
        norm_num
      exact (hstop.trans hfar).ne'
    rw [div?_eq hd, div?_eq hd]
    rfl
  · rfl

theorem repel?_eq (r : Robot ℝ) (acc : Vec ℝ) (o : Robot ℝ) :
    repel? r acc o = some (repel r acc o) := by
  unfold repel? repel
  dsimp only
  split_ifs with hid hnear
  · rfl
  · have hd := hnear.1.ne'
    rw [div?_eq (mul_ne_zero hd hd), div?_eq hd, div?_eq hd]
    rfl
  · rfl

theorem fRep?_eq (arr : List (Robot ℝ)) (r : Robot ℝ) : fRep? arr r = some (fRep arr r) :=
  foldlM_eq_some (repel?_eq r) _ arr

theorem move?_eq (cx cy : ℝ) (arr : List (Robot ℝ)) (r : Robot ℝ) :
    move? cx cy arr r = some (move cx cy arr r) := by
  unfold move?
  rw [fAtt?_eq, fRep?_eq]
  rfl

end PotentialField

theorem moveToPotentialField?_eq (cx cy : ℝ) (s : RobotsState ℝ) :
    moveToPotentialField? cx cy s = some (moveToPotentialField cx cy s) := by
  cases s with
  | robot r => rfl
  | list rs =>
    unfold moveToPotentialField?
    dsimp only
    rw [mapM_eq_some (PotentialField.move?_eq cx cy rs)]
    rfl

/-! ### `moveToBoids` -/

namespace Boids

theorem steer?_eq (desired : Vec ℝ) (r : Robot ℝ) : steer? desired r = some (steer desired r) := by
  refine Vec.limit?_eq _ ?_
  show (0 : ℝ) ≤ 0.1
  norm_num

theorem seek?_eq (cx cy : ℝ) (r : Robot ℝ) : seek? cx cy r = some (seek cx cy r) := by
  unfold seek? seek
  dsimp only
  split_ifs with hpos
  · rw [div?_eq hpos.ne', div?_eq hpos.ne']
    exact steer?_eq _ r
  · rfl

theorem gather?_eq (r : Robot ℝ) (acc : Neighbors ℝ) (o : Robot ℝ) :
    gather? r acc o = some (gather r acc o) := by
  unfold gather? gather
  dsimp only
  by_cases hid : o.id = r.id
  · rw [if_pos hid, if_pos hid]
  · rw [if_neg hid, if_neg hid]
    split_ifs with hnear
    · rw [div?_eq hnear.1.ne', div?_eq hnear.1.ne']
      rfl
    · rw [div?_eq hnear.1.ne', div?_eq hnear.1.ne']
      rfl
    · rfl
    · rfl

theorem neighbors?_eq (rs : List (Robot ℝ)) (r : Robot ℝ) :
    neighbors? rs r = some (neighbors rs r) :=
  foldlM_eq_some (gather?_eq r) _ rs

theorem separation?_eq (n : Neighbors ℝ) (r : Robot ℝ) :
    separation? n r = some (separation n r) := by
  unfold separation?
  rw [Vec.normalize?_eq]
  exact steer?_eq _ r

theorem alignment?_eq (n : Neighbors ℝ) (r : Robot ℝ) :
    alignment? n r = some (alignment n r) := by
  unfold alignment? alignment
  split_ifs with hcount
  · have hn : (n.countAlign : ℝ) ≠ 0 := Nat.cast_ne_zero.mpr hcount.ne'
    rw [div?_eq hn, div?_eq hn]
    dsimp only [Option.bind_eq_bind, Option.bind_some]
    rw [Vec.normalize?_eq]
    exact steer?_eq _ r
  · rfl

theorem cohesion?_eq (n : Neighbors ℝ) (r : Robot ℝ) :
    cohesion? n r = some (cohesion n r) := by
  unfold cohesion? cohesion
  split_ifs with hcount
  · have hn : (n.countCoh : ℝ) ≠ 0 := Nat.cast_ne_zero.mpr hcount.ne'
    rw [div?_eq hn, div?_eq hn]
    dsimp only [Option.bind_eq_bind, Option.bind_some]
    rw [Vec.normalize?_eq]
    exact steer?_eq _ r
  · rfl

theorem accel?_eq (cx cy : ℝ) (rs : List (Robot ℝ)) (r : Robot ℝ) :
    accel? cx cy rs r = some (accel cx cy rs r) := by
  unfold accel?
  rw [seek?_eq, neighbors?_eq]
  dsimp only [Option.bind_eq_bind, Option.bind_some]
  rw [separation?_eq, alignment?_eq, cohesion?_eq]
  rfl

theorem move?_eq (cx cy : ℝ) (rs : List (Robot ℝ)) (r : Robot ℝ) :
    move? cx cy rs r = some (move cx cy rs r) := by
  have hmax : (0 : ℝ) ≤ maxSpeed := by
    show (0 : ℝ) ≤ 4
    norm_num
  unfold move?
  rw [accel?_eq]
  dsimp only [Option.bind_eq_bind, Option.bind_some]
  rw [Vec.limit?_eq _ hmax]
  rfl

end Boids

theorem moveToBoids?_eq (cx cy : ℝ) (s : RobotsState ℝ) :
    moveToBoids? cx cy s = some (moveToBoids cx cy s) := by
  cases s with
  | robot r => rfl
  | list rs =>
    unfold moveToBoids?
    dsimp only
    rw [mapM_eq_some (Boids.move?_eq cx cy rs)]
    rfl

/-- **No tick divides by zero.** Whatever the robots and the target are, none of the divisions of
the three updaters fails. So a lone robot, and a list of any length under the two swarm
algorithms, has new positions and velocities. -/
theorem ticks_divide (cx cy : ℝ) :
    (∀ r, directSeek? cx cy (.list [r]) = some (directSeek cx cy (.list [r])) ∧
      directSeek cx cy (.list [r]) ≠ none) ∧
    (∀ rs, ∃ rs', moveToPotentialField? cx cy (.list rs) = some (some (.list rs')) ∧
      moveToPotentialField cx cy (.list rs) = some (.list rs')) ∧
    (∀ rs, ∃ rs', moveToBoids? cx cy (.list rs) = some (some (.list rs')) ∧
      moveToBoids cx cy (.list rs) = some (.list rs')) := by
  refine ⟨fun r => ⟨directSeek?_eq cx cy _, ?_⟩, fun rs => ⟨_, ?_, rfl⟩, fun rs => ⟨_, ?_, rfl⟩⟩
  · show (if _ then some _ else some _) ≠ none
    split_ifs <;> exact Option.some_ne_none _
  · exact moveToPotentialField?_eq cx cy (.list rs)
  · exact moveToBoids?_eq cx cy (.list rs)

end SwarmBase
