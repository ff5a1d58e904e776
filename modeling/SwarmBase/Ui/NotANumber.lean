import SwarmBase.Framework.Others
import SwarmBase.Framework.Replay
import SwarmBase.Ui.Canvas
import SwarmBase.Ui.Coincident
import SwarmBase.Ui.Page

/-!
# `NaN`

A command whose coordinates are not read back as numbers sets the target to `{ NaN, NaN }`. The
swarm algorithms do not move towards such a target, since they compare the distance first.
`directSeek` does not: its robot is at `{ NaN, NaN }` after one tick.

`JsNaN` says what is asked of `NaN`, for any numbers that have one: every operation with it gives
it, and every comparison with it is false.

* `robot_stays_lost` — from then on the robot is at `{ NaN, NaN }`, whatever the page does;
* `lost_robots_ignored` — the others move as if it was not there;
* `sprite_stays_lost` — its sprite does not come back either.
-/

namespace SwarmBase

open Framework

/-- A `NaN` among the numbers. -/
class JsNaN (K : Type) [JsArith K] where
  nan : K
  nan_add : ∀ x : K, nan + x = nan
  add_nan : ∀ x : K, x + nan = nan
  nan_sub : ∀ x : K, nan - x = nan
  sub_nan : ∀ x : K, x - nan = nan
  nan_mul : ∀ x : K, nan * x = nan
  nan_div : ∀ x : K, nan / x = nan
  nan_lt : ∀ x : K, ¬ nan < x
  lt_nan : ∀ x : K, ¬ x < nan
  nan_beq : ∀ x : K, (nan == x) = false
  beq_nan : ∀ x : K, (x == nan) = false
  hypot_nan : JsArith.hypot nan nan = nan

/-- The reals with a `NaN`, which is what a division by zero gives. -/
inductive RealOrNaN where
  | num (x : ℝ)
  | nan

namespace RealOrNaN

/-- An operation on numbers. -/
def lift (f : ℝ → ℝ → ℝ) : RealOrNaN → RealOrNaN → RealOrNaN
  | num x, num y => num (f x y)
  | _, _ => nan

/-- A comparison of numbers. -/
def Holds (P : ℝ → ℝ → Prop) : RealOrNaN → RealOrNaN → Prop
  | num x, num y => P x y
  | _, _ => False

noncomputable instance instJsArith : JsArith RealOrNaN where
  zero := num 0
  one := num 1
  add := lift (· + ·)
  sub := lift (· - ·)
  mul := lift (· * ·)
  div
    | num x, num y => if y = 0 then nan else num (x / y)
    | _, _ => nan
  natCast n := num n
  ofScientific m neg e := num (OfScientific.ofScientific m neg e)
  lt := Holds (· < ·)
  beq
    | num x, num y => decide (x = y)
    | _, _ => false
  decidableLT := Classical.decRel _
  hypot := lift fun x y => √(x ^ 2 + y ^ 2)
  min := lift min

noncomputable instance instJsNaN : JsNaN RealOrNaN where
  nan := nan
  nan_add _ := rfl
  add_nan x := by cases x <;> rfl
  nan_sub _ := rfl
  sub_nan x := by cases x <;> rfl
  nan_mul _ := rfl
  nan_div _ := rfl
  nan_lt _ := id
  lt_nan x := by cases x <;> exact id
  nan_beq _ := rfl
  beq_nan x := by cases x <;> rfl
  hypot_nan := rfl

end RealOrNaN

variable {K : Type} [JsArith K] [JsNaN K]

/-- The position `{ NaN, NaN }`. -/
def Vec.nan : Vec K := ⟨JsNaN.nan, JsNaN.nan⟩

/-- A robot at `{ NaN, NaN }`. -/
def Lost (r : Robot K) : Prop := r.position = Vec.nan

variable {r o : Robot K} {rs rest : List (Robot K)} {cx cy : K} {p q : Page K} {t : Timer K}

theorem nan_add_vec (v : Vec K) : (⟨JsNaN.nan + v.x, JsNaN.nan + v.y⟩ : Vec K) = Vec.nan := by
  rw [JsNaN.nan_add, JsNaN.nan_add]
  rfl

/-! ### What moves a lost robot -/

namespace Lost

theorem directSeek_dist (h : Lost r) (cx cy : K) : DirectSeek.dist cx cy r = JsNaN.nan := by
  unfold DirectSeek.dist
  rw [h]
  show JsArith.hypot (cx - JsNaN.nan) (cy - JsNaN.nan) = _
  rw [JsNaN.sub_nan, JsNaN.sub_nan, JsNaN.hypot_nan]

theorem directSeek_move (h : Lost r) (cx cy : K) : Lost (DirectSeek.move cx cy r) := by
  unfold Lost DirectSeek.move
  rw [h]
  exact nan_add_vec ⟨_, _⟩

theorem potential_move (h : Lost r) (cx cy : K) (rs : List (Robot K)) :
    Lost (PotentialField.move cx cy rs r) := by
  unfold Lost PotentialField.move
  rw [h]
  exact nan_add_vec ⟨_, _⟩

theorem boids_move (h : Lost r) (cx cy : K) (rs : List (Robot K)) :
    Lost (Boids.move cx cy rs r) := by
  unfold Lost Boids.move
  dsimp only
  rw [h]
  exact nan_add_vec _

end Lost

/-- `directSeek` moves its robot to the target `{ NaN, NaN }` at once. -/
theorem lost_directSeek (r : Robot K) : DirectSeek.dist JsNaN.nan JsNaN.nan r = JsNaN.nan ∧
    Lost (DirectSeek.move JsNaN.nan JsNaN.nan r) := by
  refine ⟨?_, ?_⟩
  · -- so it is not at the target, which nothing is
    unfold DirectSeek.dist
    dsimp only
    rw [JsNaN.nan_sub, JsNaN.nan_sub, JsNaN.hypot_nan]
  · unfold Lost DirectSeek.move
    dsimp only
    rw [JsNaN.nan_sub, JsNaN.nan_sub, JsNaN.nan_div, JsNaN.nan_mul, JsNaN.add_nan, JsNaN.add_nan]
    rfl

/-! ### The page -/

/-- The first robot of the list is lost. -/
def FirstLost (id : ℕ) (s : Option (RobotsState K)) : Prop :=
  ∃ r rest, s = some (.list (r :: rest)) ∧ r.id = id ∧ Lost r

theorem directSeek_lost (hdist : DirectSeek.dist cx cy r = JsNaN.nan) (rest : List (Robot K)) :
    directSeek cx cy (.list (r :: rest)) = some (.list [DirectSeek.move cx cy r]) := by
  -- `NaN` is not `0`, so the list is not replaced
  have hat : (DirectSeek.dist cx cy r == 0) = false := by rw [hdist, JsNaN.nan_beq]
  show (if DirectSeek.dist cx cy r == 0 then _ else _) = _
  rw [hat]
  rfl

theorem FirstLost.append {id : ℕ} {c : RobotsCell K} (h : FirstLost id c.value) :
    FirstLost id c.append.value := by
  obtain ⟨r, rest, hval, hid, hr⟩ := h
  refine ⟨r, rest ++ [newRobot (r :: rest).length], ?_, hid, hr⟩
  unfold RobotsCell.append
  dsimp only
  rw [hval]
  rfl

/-- No tick finds it again, whatever its target and its algorithm. -/
theorem FirstLost.move {id : ℕ} {c : RobotsCell K} (h : FirstLost id c.value) (t : Timer K)
    (ref : Option (RobotsState K)) : FirstLost id (c.move (Page.updater t ref)).value := by
  obtain ⟨r, rest, hval, hid, hr⟩ := h
  have hmove : (c.move (Page.updater t ref)).value = Page.updater t ref (.list (r :: rest)) := by
    unfold RobotsCell.move
    dsimp only
    rw [hval]
    rfl
  rw [hmove]
  unfold Page.updater
  split_ifs
  · -- the other robots are dropped, if there were any
    rw [directSeek_lost (hr.directSeek_dist _ _)]
    exact ⟨_, [], rfl, hid, hr.directSeek_move _ _⟩
  · cases t.swarmType with
    | boids => exact ⟨_, _, rfl, hid, hr.boids_move _ _ _⟩
    | potential => exact ⟨_, _, rfl, hid, hr.potential_move _ _ _⟩

theorem FirstLost.act {id : ℕ} {a : PageAction K} (h : FirstLost id p.robots.latest.value)
    (ha : p.act a = some q) : FirstLost id q.robots.latest.value := by
  obtain hsame | happend | ⟨t, hmove⟩ := Page.latest_cases ha
  · rwa [hsame]
  · rw [happend]
    exact h.append
  · rw [hmove]
    exact h.move t p.robotsRef

/-- A tick with the target `{ NaN, NaN }`, on a page that renders one robot. -/
theorem FirstLost.tick {p' : Page K} (hr : p.robots.latest.value = some (.list (r :: rest)))
    (hsingle : p.robotsRef.bind RobotsState.length? = some 1) (ht : p.timer = some t)
    (htarget : t.target = Vec.nan) (ha : p.act .tick = some p') :
    FirstLost r.id p'.robots.latest.value := by
  obtain ⟨t', ht', rfl⟩ := Page.act_tick_iff.mp ha
  obtain rfl := Option.some.inj (ht.symm.trans ht')
  obtain ⟨hdist, hlost⟩ := lost_directSeek r
  have hupdater : Page.updater t p.robotsRef (.list (r :: rest)) =
      some (.list [DirectSeek.move JsNaN.nan JsNaN.nan r]) := by
    unfold Page.updater
    rw [if_pos hsingle, htarget]
    exact directSeek_lost hdist rest
  refine ⟨DirectSeek.move JsNaN.nan JsNaN.nan r, [], ?_, rfl, hlost⟩
  rw [Page.latest_tick]
  unfold RobotsCell.move
  dsimp only
  rw [hr, Option.bind_some, hupdater]

/-- **A robot that is lost stays lost.** Whatever the numbers, as long as they have a `NaN`: if a
page that renders one robot makes one tick with the target `{ NaN, NaN }`, its first robot is at
`{ NaN, NaN }` in every state of every run from there on, with whatever commands, registrations,
algorithms, ticks and renders. -/
theorem robot_stays_lost {p' : Page K} {ls : List (PageAction K)}
    (hr : p.robots.latest.value = some (.list (r :: rest)))
    (hsingle : p.robotsRef.bind RobotsState.length? = some 1) (ht : p.timer = some t)
    (htarget : t.target = Vec.nan) (ha : p.act .tick = some p')
    (hrun : (pageSystem K).Run p' ls q) :
    ∃ r' rest', q.robots.latest.value = some (.list (r' :: rest')) ∧ r'.id = r.id ∧
      r'.position = Vec.nan := by
  have h : FirstLost r.id q.robots.latest.value := by
    refine hrun.invariant (I := fun q => FirstLost r.id q.robots.latest.value) ?_ ?_
    · exact .tick hr hsingle ht htarget ha
    · intro p a p' hlost hstep
      exact hlost.act hstep
  exact h

/-- A page that is sent to `{ NaN, NaN }`, and then to the origin with another robot. -/
theorem robot_stays_lost_one : ∃ q : Page RealOrNaN, q.target.latest.value = some Vec.zero ∧
    ∃ r' rest', q.robots.latest.value = some (.list (r' :: rest')) ∧ r'.id = 0 ∧
      r'.position = Vec.nan := by
  obtain ⟨p, t, hrun, hr, hsingle, ht, htarget⟩ : ∃ (p : Page RealOrNaN) (t : Timer RealOrNaN),
      (pageSystem RealOrNaN).Run Page.initial
        [.setRobots, .onMoveCommand Vec.nan, .commit, .effects] p ∧
      p.robots.latest.value = some (.list [newRobot 0]) ∧
      p.robotsRef.bind RobotsState.length? = some 1 ∧ p.timer = some t ∧ t.target = Vec.nan :=
    ⟨_, _, .of_runAct rfl, rfl, rfl, rfl, rfl⟩
  have htick : p.act .tick = some (p.tick t) := Page.act_tick_iff.mpr ⟨t, ht, rfl⟩
  have hlater : (pageSystem RealOrNaN).Run (p.tick t) [.setRobots, .onMoveCommand Vec.zero]
      ((p.tick t).setRobots.onMoveCommand Vec.zero) := .of_runAct rfl
  refine ⟨_, ?_, robot_stays_lost hr hsingle ht htarget htick hlater⟩
  exact congrArg TargetCell.value (Hook.latest_update _ _)

/-! ### The others -/

/-- The loops run over the robots that are not lost. -/
theorem gather_of_lost (ho : Lost o) (r : Robot K) (acc : Boids.Neighbors K) :
    Boids.gather r acc o = acc := by
  have hd : JsArith.hypot (o.position.x - r.position.x) (o.position.y - r.position.y) =
      (JsNaN.nan : K) := by
    rw [ho]
    show JsArith.hypot (JsNaN.nan - r.position.x) (JsNaN.nan - r.position.y) = _
    rw [JsNaN.nan_sub, JsNaN.nan_sub, JsNaN.hypot_nan]
  have hnear : ¬(0 < (JsNaN.nan : K) ∧ (JsNaN.nan : K) < Boids.sepRadius) := by
    intro h
    exact JsNaN.lt_nan _ h.1
  unfold Boids.gather
  dsimp only
  rw [hd, if_neg (JsNaN.nan_lt _), if_neg hnear, ite_self]

theorem repel_of_lost (ho : Lost o) (r : Robot K) (acc : Vec K) :
    PotentialField.repel r acc o = acc := by
  have hd : JsArith.hypot (r.position.x - o.position.x) (r.position.y - o.position.y) =
      (JsNaN.nan : K) := by
    rw [ho]
    show JsArith.hypot (r.position.x - JsNaN.nan) (r.position.y - JsNaN.nan) = _
    rw [JsNaN.sub_nan, JsNaN.sub_nan, JsNaN.hypot_nan]
  have hnear : ¬(0 < (JsNaN.nan : K) ∧ (JsNaN.nan : K) < PotentialField.sepDist) := by
    intro h
    exact JsNaN.lt_nan _ h.1
  unfold PotentialField.repel
  dsimp only
  rw [hd, if_neg hnear, ite_self]

/-- The robots with some ids are lost. -/
def AllLost (lost : ℕ → Bool) (rs : List (Robot K)) : Prop := ∀ r ∈ rs, lost r.id = true → Lost r

variable {lost : ℕ → Bool} {a : SwarmAction K}

/-- The robots with other ids. -/
def remaining (lost : ℕ → Bool) (rs : List (Robot K)) : List (Robot K) :=
  rs.filter fun r => !lost r.id

theorem AllLost.boids_move (h : AllLost lost rs) (cx cy : K) (r : Robot K) :
    Boids.move cx cy (remaining lost rs) r = Boids.move cx cy rs r := by
  have hneighbors : Boids.neighbors (remaining lost rs) r = Boids.neighbors rs r := by
    refine foldl_filter_of_skip (fun o ho hlost acc => ?_) _
    exact gather_of_lost (h o ho (by simpa using hlost)) r acc
  unfold Boids.move Boids.accel
  rw [hneighbors]

theorem AllLost.potential_move (h : AllLost lost rs) (cx cy : K) (r : Robot K) :
    PotentialField.move cx cy (remaining lost rs) r = PotentialField.move cx cy rs r := by
  have hrep : PotentialField.fRep (remaining lost rs) r = PotentialField.fRep rs r := by
    refine foldl_filter_of_skip (fun o ho hlost acc => ?_) _
    exact repel_of_lost (h o ho (by simpa using hlost)) r acc
  unfold PotentialField.move
  rw [hrep]

/-- **One tick.** -/
theorem AllLost.apply (h : AllLost lost rs) (ha : a ≠ .register) :
    AllLost lost (a.apply rs) ∧ remaining lost (a.apply rs) = a.apply (remaining lost rs) := by
  cases a with
  | register => exact absurd rfl ha
  | boids t =>
    refine ⟨?_, ?_⟩
    · intro r hr hlost
      obtain ⟨r₀, hr₀, rfl⟩ := List.mem_map.mp hr
      exact (h r₀ hr₀ hlost).boids_move _ _ _
    · show (rs.map _).filter _ = (rs.filter _).map _
      rw [List.filter_map]
      exact List.map_congr_left fun r _ => (h.boids_move t.x t.y r).symm
  | potential t =>
    refine ⟨?_, ?_⟩
    · intro r hr hlost
      obtain ⟨r₀, hr₀, rfl⟩ := List.mem_map.mp hr
      exact (h r₀ hr₀ hlost).potential_move _ _ _
    · show (rs.map _).filter _ = (rs.filter _).map _
      rw [List.filter_map]
      exact List.map_congr_left fun r _ => (h.potential_move t.x t.y r).symm

/-- **Lost robots do not disturb the others.** Whatever the numbers, as long as they have a `NaN`:
in every run of ticks of both algorithms, from every list in which the robots with some ids are at
`{ NaN, NaN }`, these stay there, and the others end up exactly as if the lost ones had not been in
the list. -/
theorem lost_robots_ignored (h : AllLost lost rs) (as : List (SwarmAction K))
    (has : ∀ a ∈ as, a ≠ .register) :
    AllLost lost (as.foldl SwarmAction.apply rs) ∧
      remaining lost (as.foldl SwarmAction.apply rs) =
        as.foldl SwarmAction.apply (remaining lost rs) := by
  induction as generalizing rs with
  | nil => exact ⟨h, rfl⟩
  | cons a as ih =>
    obtain ⟨ha, has⟩ := List.forall_mem_cons.mp has
    obtain ⟨hlost, hremaining⟩ := h.apply ha
    rw [List.foldl_cons, List.foldl_cons, ← hremaining]
    exact ih hlost has

/-- A lost robot among two others. -/
theorem lost_robots_ignored_one :
    let rs : List (Robot RealOrNaN) := [newRobot 0, ⟨1, Vec.nan, Vec.zero⟩, newRobot 2]
    let as : List (SwarmAction RealOrNaN) := [.boids Vec.zero, .potential Vec.nan]
    AllLost (· = 1) (as.foldl SwarmAction.apply rs) ∧
      remaining (· = 1) (as.foldl SwarmAction.apply rs) =
        as.foldl SwarmAction.apply [newRobot 0, newRobot 2] := by
  refine lost_robots_ignored ?_ _ (by simp)
  intro r hr hlost
  simp only [List.mem_cons, List.not_mem_nil, or_false] at hr
  obtain rfl | rfl | rfl := hr
  · cases hlost
  · rfl
  · cases hlost

/-! ### The canvas -/

namespace Canvas

variable {c c' c'' : Canvas K} {id : ℕ} {tw : Tween K} {rs rs' : List (Robot K)}
  {b : CanvasAction K}

/-- A tween of a sprite that is lost, or is going to be. -/
def Losing (c : Canvas K) (id : ℕ) : Prop :=
  ∀ tw, c.tweens id = some tw → tw.start = Vec.nan ∨ tw.target = Vec.nan

/-- The sprite is lost, and no tween brings it back. -/
def SpriteLost (c : Canvas K) (id : ℕ) : Prop := c.sprites id = some Vec.nan ∧ c.Losing id

/-- The next frame has the sprite at `{ NaN, NaN }`, if it is not there yet. -/
def SpriteLeaving (c : Canvas K) (id : ℕ) : Prop :=
  ∃ s, c.sprites id = some s ∧ (c.tweens id = none → s = Vec.nan) ∧ c.Losing id

theorem SpriteLost.leaving (h : c.SpriteLost id) : c.SpriteLeaving id :=
  ⟨Vec.nan, h.1, fun _ => rfl, h.2⟩

theorem positionAt_nan (h : tw.start = Vec.nan ∨ tw.target = Vec.nan) (t : K) :
    tw.positionAt t = Vec.nan := by
  unfold Tween.positionAt
  obtain hstart | htarget := h
  · rw [hstart]
    exact nan_add_vec ⟨_, _⟩
  · rw [htarget]
    show (⟨tw.start.x + (JsNaN.nan - tw.start.x) * t, tw.start.y + (JsNaN.nan - tw.start.y) * t⟩ :
      Vec K) = _
    rw [JsNaN.nan_sub, JsNaN.nan_sub, JsNaN.nan_mul, JsNaN.add_nan, JsNaN.add_nan]
    rfl

/-- A position with a `NaN` differs from every other, and from itself. -/
theorem showRobot_of_nan {r : Robot K} {s : Vec K} (h : c.sprites r.id = some s)
    (hnan : s = Vec.nan ∨ r.position = Vec.nan) :
    c.showRobot r =
      { c with tweens := Function.update c.tweens r.id (some (.new c.lastTime s r.position)) } := by
  have hmoved : (s.x != r.position.x || s.y != r.position.y) = true := by
    obtain rfl | hr := hnan
    · show (!(JsNaN.nan == r.position.x) || _) = true
      rw [JsNaN.nan_beq]
      rfl
    · rw [hr]
      show (!(s.x == JsNaN.nan) || _) = true
      rw [JsNaN.beq_nan]
      rfl
  unfold Canvas.showRobot
  rw [h]
  exact if_pos hmoved

omit [JsNaN K] in
theorem act_clock_eq {t : K} (hb : c.act (.clock t) = some c') : c' = { c with lastTime := t } := by
  have hclock : (if t < c.lastTime then none else some { c with lastTime := t }) = some c' := hb
  split_ifs at hclock
  exact (Option.some.inj hclock).symm

omit [JsNaN K] in
/-- What the effect does for a robot does not concern the others. -/
theorem showRobot_of_id_ne {r : Robot K} (hid : id ≠ r.id) :
    (c.showRobot r).sprites id = c.sprites id ∧ (c.showRobot r).tweens id = c.tweens id := by
  unfold Canvas.showRobot
  cases c.sprites r.id with
  | none => exact ⟨Function.update_of_ne hid _ _, rfl⟩
  | some s =>
    dsimp only
    split_ifs
    · exact ⟨rfl, Function.update_of_ne hid _ _⟩
    · exact ⟨rfl, rfl⟩

theorem SpriteLeaving.congr (h : c.SpriteLeaving id) (hsprite : c'.sprites id = c.sprites id)
    (htween : c'.tweens id = c.tweens id) : c'.SpriteLeaving id := by
  unfold SpriteLeaving Losing
  rw [hsprite, htween]
  exact h

theorem SpriteLost.congr (h : c.SpriteLost id) (hsprite : c'.sprites id = c.sprites id)
    (htween : c'.tweens id = c.tweens id) : c'.SpriteLost id := by
  unfold SpriteLost Losing
  rw [hsprite, htween]
  exact h

/-- The effect starts a tween of a lost sprite where it is, whatever it starts it for. -/
theorem SpriteLost.showRobot (h : c.SpriteLost id) (r : Robot K) :
    (c.showRobot r).SpriteLost id := by
  by_cases hid : id = r.id
  · -- `NaN` differs from the new position, so there is a new tween, which starts at `NaN`
    subst hid
    rw [showRobot_of_nan h.1 (Or.inl rfl)]
    refine ⟨h.1, ?_⟩
    intro tw htw
    dsimp only at htw
    rw [Function.update_self] at htw
    obtain rfl := Option.some.inj htw
    exact Or.inl rfl
  · obtain ⟨hsprite, htween⟩ := showRobot_of_id_ne (c := c) hid
    exact h.congr hsprite htween

theorem SpriteLost.robots (h : c.SpriteLost id) (rs : List (Robot K)) :
    (c.robots rs).SpriteLost id := by
  unfold Canvas.robots
  induction rs generalizing c with
  | nil => exact h
  | cons r rs ih => exact ih (h.showRobot r)

/-- A frame loses a sprite that has a tween to `{ NaN, NaN }`. -/
theorem SpriteLeaving.tick (h : c.SpriteLeaving id) : c.tick.SpriteLost id := by
  obtain ⟨s, hs, hnone, hlosing⟩ := h
  refine ⟨?_, ?_⟩
  · show (c.sprites id).map (fun s => (c.tweens id).elim s _) = some Vec.nan
    rw [hs, Option.map_some]
    -- without a tween the sprite was put there, with one it is moved there
    cases htween : c.tweens id with
    | none => exact congrArg some (hnone htween)
    | some tw => exact congrArg some (positionAt_nan (hlosing tw htween) _)
  · intro tw htw
    exact hlosing tw (Option.filter_eq_some_iff.mp htw).1

theorem SpriteLost.act (h : c.SpriteLost id) (hb : c.act b = some c') : c'.SpriteLost id := by
  cases b with
  | robots rs =>
    obtain rfl := Option.some.inj hb
    exact h.robots rs
  | tick =>
    obtain rfl := Option.some.inj hb
    exact h.leaving.tick
  | clock t =>
    obtain rfl := act_clock_eq hb
    exact h.congr rfl rfl

/-- Only sprites have tweens. -/
def Sprited (c : Canvas K) : Prop := ∀ id, c.sprites id = none → c.tweens id = none

omit [JsNaN K] in
theorem Sprited.showRobot (h : c.Sprited) (r : Robot K) : (c.showRobot r).Sprited := by
  intro id hid
  by_cases heq : id = r.id
  · subst heq
    unfold Canvas.showRobot at hid ⊢
    cases hs : c.sprites r.id with
    | none =>
      rw [hs] at hid
      dsimp only at hid
      rw [Function.update_self] at hid
      cases hid
    | some s =>
      -- the sprite is still there
      rw [hs] at hid
      dsimp only at hid
      split_ifs at hid
      · exact absurd (hs.symm.trans hid) nofun
      · exact absurd (hs.symm.trans hid) nofun
  · obtain ⟨hsprite, htween⟩ := showRobot_of_id_ne (c := c) heq
    rw [htween]
    exact h id (hsprite ▸ hid)

omit [JsNaN K] in
theorem Sprited.robots (h : c.Sprited) (rs : List (Robot K)) : (c.robots rs).Sprited := by
  unfold Canvas.robots
  induction rs generalizing c with
  | nil => exact h
  | cons r rs ih => exact ih (h.showRobot r)

omit [JsNaN K] in
theorem Sprited.act (h : c.Sprited) (hb : c.act b = some c') : c'.Sprited := by
  cases b with
  | robots rs =>
    obtain rfl := Option.some.inj hb
    exact h.robots rs
  | tick =>
    obtain rfl := Option.some.inj hb
    intro id hid
    have htween : c.tweens id = none := h id (Option.map_eq_none_iff.mp hid)
    show (c.tweens id).filter _ = none
    rw [htween]
    rfl
  | clock t =>
    obtain rfl := act_clock_eq hb
    exact h

/-- A robot at `{ NaN, NaN }` has a sprite put there, or a tween that leads there. -/
theorem Sprited.leaving {r : Robot K} (h : c.Sprited) (hr : r.position = Vec.nan) :
    (c.showRobot r).SpriteLeaving r.id := by
  cases hs : c.sprites r.id with
  | none =>
    have hshow : c.showRobot r = { c with
        sprites := Function.update c.sprites r.id (some r.position)
        stage := c.stage ++ [r.id] } := by
      unfold Canvas.showRobot
      rw [hs]
    rw [hshow]
    refine ⟨Vec.nan, ?_, fun _ => rfl, ?_⟩
    · rw [← hr]
      exact Function.update_self _ _ _
    · intro tw htw
      exact absurd ((h r.id hs).symm.trans htw) nofun
  | some s =>
    rw [showRobot_of_nan hs (Or.inr hr)]
    refine ⟨s, hs, ?_, ?_⟩
    · intro hnone
      dsimp only at hnone
      rw [Function.update_self] at hnone
      cases hnone
    · intro tw htw
      dsimp only at htw
      rw [Function.update_self] at htw
      obtain rfl := Option.some.inj htw
      exact Or.inr hr

theorem SpriteLeaving.robots (h : c.SpriteLeaving id) (hrs : id ∉ rs.map Robot.id) :
    (c.robots rs).SpriteLeaving id := by
  unfold Canvas.robots
  induction rs generalizing c with
  | nil => exact h
  | cons r rs ih =>
    rw [List.map_cons, List.mem_cons, not_or] at hrs
    obtain ⟨hsprite, htween⟩ := showRobot_of_id_ne (c := c) hrs.1
    exact ih (h.congr hsprite htween) hrs.2

theorem Sprited.leaving_robots {r : Robot K} (h : c.Sprited) (hr : r ∈ rs)
    (hids : (rs.map Robot.id).Nodup) (hnan : r.position = Vec.nan) :
    (c.robots rs).SpriteLeaving r.id := by
  obtain ⟨rs₁, rs₂, rfl⟩ := List.append_of_mem hr
  rw [List.map_append, List.map_cons, List.nodup_append, List.nodup_cons] at hids
  have hrun : c.robots (rs₁ ++ r :: rs₂) = ((c.robots rs₁).showRobot r).robots rs₂ := by
    unfold Canvas.robots
    rw [List.foldl_append, List.foldl_cons]
  rw [hrun]
  exact ((h.robots rs₁).leaving hnan).robots hids.2.1.1

/-- What the frames and the clock do before the first frame. -/
theorem SpriteLeaving.act (h : c.SpriteLeaving id) (hb : c.act b = some c')
    (hfree : b.isRobots = false) : c'.SpriteLeaving id := by
  cases b with
  | robots rs => cases hfree
  | tick =>
    obtain rfl := Option.some.inj hb
    exact h.tick.leaving
  | clock t =>
    obtain rfl := act_clock_eq hb
    exact h.congr rfl rfl

end Canvas

/-- **A sprite that is lost stays lost.** Whatever the numbers, as long as they have a `NaN`: once
the `robots` had a robot at `{ NaN, NaN }` for the time of one frame, its sprite is at
`{ NaN, NaN }` for the rest of every run of the canvas, wherever the robot is then. -/
theorem sprite_stays_lost {t : K} {as bs later : List (CanvasAction K)} {rs : List (Robot K)}
    {c : Canvas K} (hr : r ∈ rs) (hids : (rs.map Robot.id).Nodup) (hnan : r.position = Vec.nan)
    (hbs : ∀ b ∈ bs, b.isRobots = false)
    (hrun : (canvasSystem K).Run (Canvas.initial t)
      (as ++ .robots rs :: (bs ++ .tick :: later)) c) : c.sprites r.id = some Vec.nan := by
  obtain ⟨c₁, has, hrun⟩ := hrun.exists_of_append
  obtain ⟨c₂, hrobots, hrun⟩ := hrun.exists_of_cons
  obtain ⟨c₃, hbefore, hrun⟩ := hrun.exists_of_append
  obtain ⟨c₄, hframe, hlater⟩ := hrun.exists_of_cons
  -- until the robot is at `{ NaN, NaN }`
  have h₁ : c₁.Sprited := by
    refine has.invariant (I := Canvas.Sprited) (fun _ _ => rfl) ?_
    intro c b c' h hb
    exact h.act hb
  have h₂ : c₂.SpriteLeaving r.id := by
    obtain rfl := Option.some.inj hrobots
    exact h₁.leaving_robots hr hids hnan
  -- until the frame
  have h₃ : c₃.SpriteLeaving r.id := by
    have hfree := hbefore.to_restrict (G := fun _ b => b.isRobots = false) fun b hb _ => hbs b hb
    refine hfree.invariant (I := fun c => c.SpriteLeaving r.id) h₂ ?_
    intro c b c' h hb
    exact h.act hb.2 hb.1
  have h₄ : c₄.SpriteLost r.id := by
    obtain rfl := Option.some.inj hframe
    exact h₃.tick
  have h : c.SpriteLost r.id := by
    refine hlater.invariant (I := fun c => c.SpriteLost r.id) h₄ ?_
    intro c b c' h hb
    exact h.act hb
  exact h.1

/-- A robot that is at `{ NaN, NaN }` for one frame, and then at the origin again. -/
theorem sprite_stays_lost_one : ∃ c : Canvas RealOrNaN,
    (canvasSystem RealOrNaN).Run (Canvas.initial 0)
      ([.robots [newRobot 0]] ++ .robots [⟨0, Vec.nan, Vec.zero⟩] ::
        ([] ++ .tick :: [.robots [newRobot 0], .tick])) c ∧ c.sprites 0 = some Vec.nan := by
  obtain ⟨c, hrun⟩ : ∃ c, (canvasSystem RealOrNaN).Run (Canvas.initial 0)
      ([.robots [newRobot 0]] ++ .robots [⟨0, Vec.nan, Vec.zero⟩] ::
        ([] ++ .tick :: [.robots [newRobot 0], .tick])) c := ⟨_, .of_runAct rfl⟩
  refine ⟨c, hrun, sprite_stays_lost (r := ⟨0, Vec.nan, Vec.zero⟩) ?_ ?_ rfl ?_ hrun⟩
  · exact List.mem_cons_self
  · exact List.nodup_singleton _
  · intro b hb
    cases hb

end SwarmBase
