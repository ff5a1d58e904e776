import Mathlib.Logic.Function.Basic
import SwarmBase.Framework.System
import SwarmBase.Ui.Plane

/-!
# The canvas

`RobotCanvas.tsx` draws a sprite for each robot. When the `robots` change, an effect adds the
sprites of new robots and sets up a tween for every sprite that is not at its robot's position; on
every frame a ticker callback moves the sprites along their tweens and deletes the tweens that are
over. The model starts when the Pixi application is initialised.

The effect compares the new position with where the sprite is, not with where it is going. A sprite
that passes the new position in the middle of an older tween is left to that tween.

* `Canvas.heading` — where a sprite is going to end up, which no frame changes
  (`WellFormed.heading_act`);
* `canvas_settles_iff` — the sprites end up at the robots exactly if, at the last change, no sprite
  was passing the new position of its robot.
-/

namespace SwarmBase

open Framework

section Canvas

variable {K : Type}

structure Tween (K : Type) where
  startTime : K
  /-- In seconds. -/
  duration : K
  start : Vec K
  target : Vec K

/-- The refs of `RobotCanvas`, by the robots' ids, and what of the Pixi application it uses. -/
structure Canvas (K : Type) where
  /-- The ticker's `lastTime`, in milliseconds. -/
  lastTime : K
  sprites : ℕ → Option (Vec K)
  tweens : ℕ → Option (Tween K)
  /-- For each child of the stage, the robot it was added for. -/
  stage : List ℕ

def Canvas.initial (t : K) : Canvas K where
  lastTime := t
  sprites _ := none
  tweens _ := none
  stage := []

variable [JsArith K]

/-! ### The ticker callback -/

namespace Tween

/-- The tween the `robots` effect sets up. -/
def new (lastTime : K) (start target : Vec K) : Tween K :=
  { startTime := lastTime, duration := 0.5, start := start, target := target }

/-- How much of a tween is over. -/
def progress (tw : Tween K) (now : K) : K :=
  JsArith.min 1 ((now - tw.startTime) / (tw.duration * 1000))

/-- Where a tween has the sprite when `t` of it is over. -/
def positionAt (tw : Tween K) (t : K) : Vec K :=
  ⟨tw.start.x + (tw.target.x - tw.start.x) * t, tw.start.y + (tw.target.y - tw.start.y) * t⟩

def isOver (tw : Tween K) (now : K) : Bool :=
  decide (1 < tw.progress now) || tw.progress now == 1

end Tween

namespace Canvas

def tick (c : Canvas K) : Canvas K where
  lastTime := c.lastTime
  sprites id := (c.sprites id).map fun s =>
    (c.tweens id).elim s fun tw => tw.positionAt (tw.progress c.lastTime)
  tweens id := (c.tweens id).filter fun tw => !tw.isOver c.lastTime
  stage := c.stage

/-! ### The `robots` effect -/

/-- What the effect does for one robot. -/
def showRobot (c : Canvas K) (r : Robot K) : Canvas K :=
  match c.sprites r.id with
  | none =>
    { c with
      sprites := Function.update c.sprites r.id (some r.position)
      stage := c.stage ++ [r.id] }
  | some s =>
    if s.x != r.position.x || s.y != r.position.y then
      { c with tweens := Function.update c.tweens r.id (some (.new c.lastTime s r.position)) }
    else c

def robots (c : Canvas K) (rs : List (Robot K)) : Canvas K := rs.foldl showRobot c

end Canvas

/-- What happens to the canvas. -/
inductive CanvasAction (K : Type) where
  | robots (rs : List (Robot K))
  | tick
  /-- The ticker's clock moves on. -/
  | clock (t : K)

def CanvasAction.isRobots : CanvasAction K → Bool
  | .robots _ => true
  | _ => false

def Canvas.act (c : Canvas K) : CanvasAction K → Option (Canvas K)
  | .robots rs => some (c.robots rs)
  | .tick => some c.tick
  | .clock t => if t < c.lastTime then none else some { c with lastTime := t }

def canvasSystem (K : Type) [JsArith K] : System (Canvas K) (CanvasAction K) :=
  .ofAct (fun c => ∃ t, c = .initial t) Canvas.act

end Canvas

namespace Canvas

variable {c c' : Canvas ℝ} {rs : List (Robot ℝ)} {r : Robot ℝ} {id : ℕ} {tw : Tween ℝ}
  {a : CanvasAction ℝ}

/-! ### One robot -/

theorem showRobot_of_none (h : c.sprites r.id = none) :
    c.showRobot r = { c with
      sprites := Function.update c.sprites r.id (some r.position)
      stage := c.stage ++ [r.id] } := by
  unfold Canvas.showRobot
  rw [h]

theorem showRobot_of_eq (h : c.sprites r.id = some r.position) : c.showRobot r = c := by
  unfold Canvas.showRobot
  rw [h]
  simp

theorem showRobot_of_ne {s : Vec ℝ} (h : c.sprites r.id = some s) (hne : s ≠ r.position) :
    c.showRobot r =
      { c with tweens := Function.update c.tweens r.id (some (.new c.lastTime s r.position)) } := by
  have hmoved : (s.x != r.position.x || s.y != r.position.y) = true := by
    rw [Bool.or_eq_true, bne_iff_ne, bne_iff_ne]
    by_contra hsame
    rw [not_or, not_not, not_not] at hsame
    exact hne (Vec.ext hsame.1 hsame.2)
  unfold Canvas.showRobot
  rw [h]
  exact if_pos hmoved

/-- What the effect does for a robot, by where its sprite is. -/
theorem showRobot_cases (c : Canvas ℝ) (r : Robot ℝ) :
    c.sprites r.id = none ∨ c.sprites r.id = some r.position ∨
      ∃ s, c.sprites r.id = some s ∧ s ≠ r.position := by
  cases h : c.sprites r.id with
  | none => exact Or.inl rfl
  | some s =>
    by_cases hs : s = r.position
    · exact Or.inr (Or.inl (congrArg some hs))
    · exact Or.inr (Or.inr ⟨s, rfl, hs⟩)

/-- The other robots are left alone. -/
theorem showRobot_other (c : Canvas ℝ) (hid : id ≠ r.id) :
    (c.showRobot r).sprites id = c.sprites id ∧ (c.showRobot r).tweens id = c.tweens id := by
  rcases showRobot_cases c r with h | h | ⟨s, h, hne⟩
  · rw [showRobot_of_none h]
    exact ⟨Function.update_of_ne hid _ _, rfl⟩
  · rw [showRobot_of_eq h]
    exact ⟨rfl, rfl⟩
  · rw [showRobot_of_ne h hne]
    exact ⟨rfl, Function.update_of_ne hid _ _⟩

@[simp] theorem lastTime_showRobot (c : Canvas ℝ) (r : Robot ℝ) :
    (c.showRobot r).lastTime = c.lastTime := by
  rcases showRobot_cases c r with h | h | ⟨s, h, hne⟩
  · rw [showRobot_of_none h]
  · rw [showRobot_of_eq h]
  · rw [showRobot_of_ne h hne]

@[simp] theorem lastTime_robots (c : Canvas ℝ) (rs : List (Robot ℝ)) :
    (c.robots rs).lastTime = c.lastTime := by
  unfold robots
  induction rs generalizing c with
  | nil => rfl
  | cons r rs ih => rw [List.foldl_cons, ih, lastTime_showRobot]

/-! ### Where a sprite is going -/

/-- Where the sprite of a robot is going to end up: where its tween ends, or else where it is. -/
noncomputable def heading (c : Canvas ℝ) (id : ℕ) : Option (Vec ℝ) :=
  (c.tweens id).elim (c.sprites id) fun tw => some tw.target

/-- The invariant of the canvas. Every robot has at most one sprite, and only sprites have
tweens. -/
structure WellFormed (c : Canvas ℝ) : Prop where
  sprite : ∀ id, c.tweens id ≠ none → c.sprites id ≠ none
  startTime : ∀ id tw, c.tweens id = some tw → tw.startTime ≤ c.lastTime
  duration : ∀ id tw, c.tweens id = some tw → tw.duration = 0.5
  stage : ∀ id, c.stage.count id = (c.sprites id).elim 0 fun _ => 1

theorem WellFormed.initial (t : ℝ) : WellFormed (Canvas.initial t) where
  sprite _ h := absurd rfl h
  startTime := nofun
  duration := nofun
  stage _ := rfl

theorem heading_congr (hsprite : c'.sprites id = c.sprites id)
    (htween : c'.tweens id = c.tweens id) : c'.heading id = c.heading id := by
  unfold heading
  rw [hsprite, htween]

/-! ### The `robots` effect -/

/-- The effect sends a sprite to its robot, unless the sprite is just there. -/
theorem heading_showRobot (hc : WellFormed c) (r : Robot ℝ) :
    (c.showRobot r).heading r.id =
      if c.sprites r.id = some r.position then c.heading r.id else some r.position := by
  rcases showRobot_cases c r with h | h | ⟨s, h, hne⟩
  · -- a new sprite has no tween
    have hnone : c.tweens r.id = none := by
      by_contra htween
      exact hc.sprite r.id htween h
    rw [if_neg (h ▸ nofun), showRobot_of_none h]
    unfold heading
    dsimp only
    rw [hnone]
    exact Function.update_self _ _ _
  · rw [if_pos h, showRobot_of_eq h]
  · rw [if_neg fun heq => hne (Option.some.inj (h.symm.trans heq)), showRobot_of_ne h hne]
    unfold heading
    dsimp only
    rw [Function.update_self]
    rfl

/-- Sprites are only added. -/
theorem sprites_showRobot {s : Vec ℝ} (h : c.sprites id = some s) (r : Robot ℝ) :
    (c.showRobot r).sprites id = some s := by
  rcases showRobot_cases c r with hr | hr | ⟨s', hr, hne⟩
  · have hid : id ≠ r.id := by
      rintro rfl
      rw [h] at hr
      cases hr
    rw [(showRobot_other c hid).1, h]
  · rwa [showRobot_of_eq hr]
  · rwa [showRobot_of_ne hr hne]

/-- A tween is an old one, or starts now on a sprite that was there. -/
theorem tweens_showRobot (h : (c.showRobot r).tweens id = some tw) :
    c.tweens id = some tw ∨ ∃ s, c.sprites id = some s ∧ tw = .new c.lastTime s r.position := by
  rcases showRobot_cases c r with hr | hr | ⟨s, hr, hne⟩
  · rw [showRobot_of_none hr] at h
    exact Or.inl h
  · rw [showRobot_of_eq hr] at h
    exact Or.inl h
  · rw [showRobot_of_ne hr hne] at h
    dsimp only at h
    by_cases hid : id = r.id
    · rw [hid, Function.update_self] at h
      exact Or.inr ⟨s, hid ▸ hr, (Option.some.inj h).symm⟩
    · rw [Function.update_of_ne hid] at h
      exact Or.inl h

/-- A robot is put on the stage when it gets its sprite. -/
theorem count_stage_showRobot (hc : WellFormed c) (r : Robot ℝ) (id : ℕ) :
    (c.showRobot r).stage.count id = ((c.showRobot r).sprites id).elim 0 fun _ => 1 := by
  rcases showRobot_cases c r with h | h | ⟨s, h, hne⟩
  · rw [showRobot_of_none h]
    dsimp only
    rw [List.count_append, hc.stage id]
    by_cases hid : id = r.id
    · rw [hid, h, Function.update_self, List.count_singleton_self]
      rfl
    · rw [Function.update_of_ne hid, List.count_singleton, if_neg (by simpa using Ne.symm hid),
        Nat.add_zero]
  · rw [showRobot_of_eq h]
    exact hc.stage id
  · rw [showRobot_of_ne h hne]
    exact hc.stage id

theorem WellFormed.showRobot (hc : WellFormed c) (r : Robot ℝ) : WellFormed (c.showRobot r) where
  sprite id htween := by
    obtain ⟨tw, htw⟩ := Option.ne_none_iff_exists'.mp htween
    have hbefore : c.sprites id ≠ none := by
      rcases tweens_showRobot htw with hold | ⟨s, hs, -⟩
      · exact hc.sprite id (hold ▸ Option.some_ne_none tw)
      · exact hs ▸ Option.some_ne_none s
    obtain ⟨s, hs⟩ := Option.ne_none_iff_exists'.mp hbefore
    rw [sprites_showRobot hs r]
    exact Option.some_ne_none s
  startTime id tw htw := by
    rw [lastTime_showRobot]
    rcases tweens_showRobot htw with hold | ⟨s, -, rfl⟩
    · exact hc.startTime id tw hold
    · exact le_refl c.lastTime
  duration id tw htw := by
    rcases tweens_showRobot htw with hold | ⟨s, -, rfl⟩
    · exact hc.duration id tw hold
    · rfl
  stage := count_stage_showRobot hc r

theorem WellFormed.robots (hc : WellFormed c) (rs : List (Robot ℝ)) : WellFormed (c.robots rs) := by
  unfold Canvas.robots
  induction rs generalizing c with
  | nil => exact hc
  | cons r rs ih => exact ih (hc.showRobot r)

theorem robots_other (c : Canvas ℝ) (hid : ∀ r ∈ rs, id ≠ r.id) :
    (c.robots rs).sprites id = c.sprites id ∧ (c.robots rs).tweens id = c.tweens id := by
  unfold robots
  induction rs generalizing c with
  | nil => exact ⟨rfl, rfl⟩
  | cons r rs ih =>
    obtain ⟨hsprite, htween⟩ := showRobot_other c (hid r List.mem_cons_self)
    obtain ⟨hsprite', htween'⟩ := ih (c.showRobot r) fun o ho => hid o (List.mem_cons_of_mem r ho)
    exact ⟨hsprite'.trans hsprite, htween'.trans htween⟩

/-- What the effect does for each of the robots. -/
theorem heading_robots (hc : WellFormed c) (hnodup : (rs.map Robot.id).Nodup) (hr : r ∈ rs) :
    (c.robots rs).heading r.id =
      if c.sprites r.id = some r.position then c.heading r.id else some r.position := by
  induction rs generalizing c with
  | nil => cases hr
  | cons o rs ih =>
    rw [List.map_cons, List.nodup_cons] at hnodup
    have hrest : (c.robots (o :: rs)) = (c.showRobot o).robots rs := rfl
    rw [hrest]
    rcases List.mem_cons.mp hr with rfl | hr
    · -- the robots after it have other ids
      have hother : ∀ o ∈ rs, r.id ≠ o.id :=
        fun o ho heq => hnodup.1 (List.mem_map.mpr ⟨o, ho, heq.symm⟩)
      obtain ⟨hsprite, htween⟩ := robots_other (c.showRobot r) hother
      rw [heading_congr hsprite htween, heading_showRobot hc]
    · have hid : r.id ≠ o.id := fun heq => hnodup.1 (List.mem_map.mpr ⟨r, hr, heq⟩)
      obtain ⟨hsprite, htween⟩ := showRobot_other c hid
      rw [ih (hc.showRobot o) hnodup.2 hr, hsprite, heading_congr hsprite htween]

/-! ### The ticker callback -/

theorem progress_eq (hdur : tw.duration = 0.5) (now : ℝ) :
    tw.progress now = min 1 ((now - tw.startTime) / 500) := by
  have h500 : (0.5 : ℝ) * 1000 = 500 := by norm_num
  unfold Tween.progress
  rw [hdur]
  show min 1 ((now - tw.startTime) / ((0.5 : ℝ) * 1000)) = _
  rw [h500]

theorem isOver_iff (hdur : tw.duration = 0.5) (now : ℝ) :
    tw.isOver now = true ↔ tw.startTime + 500 ≤ now := by
  unfold Tween.isOver
  rw [progress_eq hdur, Bool.or_eq_true, decide_eq_true_iff, beq_iff_eq, or_comm,
    eq_comm, ← le_iff_eq_or_lt, le_min_iff, and_iff_right le_rfl, one_le_div (by norm_num)]
  refine ⟨?_, ?_⟩
  · intro h
    linarith
  · intro h
    linarith

theorem positionAt_of_isOver (hdur : tw.duration = 0.5) {now : ℝ} (h : tw.isOver now = true) :
    tw.positionAt (tw.progress now) = tw.target := by
  have hover : 1 ≤ (now - tw.startTime) / 500 := by
    rw [one_le_div (by norm_num)]
    linarith [(isOver_iff hdur now).mp h]
  rw [progress_eq hdur, min_eq_left hover]
  refine Vec.ext ?_ ?_
  · show tw.start.x + (tw.target.x - tw.start.x) * 1 = tw.target.x
    rw [mul_one, add_sub_cancel]
  · show tw.start.y + (tw.target.y - tw.start.y) * 1 = tw.target.y
    rw [mul_one, add_sub_cancel]

/-- A frame does not change where a sprite is going. -/
theorem WellFormed.heading_tick (hc : WellFormed c) (id : ℕ) :
    c.tick.heading id = c.heading id := by
  unfold heading Canvas.tick
  dsimp only
  cases htween : c.tweens id with
  | none =>
    show (c.sprites id).map (fun s => s) = _
    exact Option.map_id'
  | some tw =>
    obtain ⟨s, hs⟩ := Option.ne_none_iff_exists'.mp (hc.sprite id (htween ▸ Option.some_ne_none tw))
    rw [hs]
    by_cases hover : tw.isOver c.lastTime = true
    · rw [Option.filter_some, hover]
      exact congrArg some (positionAt_of_isOver (hc.duration id tw htween) hover)
    · rw [Bool.not_eq_true] at hover
      rw [Option.filter_some, hover]
      rfl

theorem tweens_tick {id : ℕ} (h : c.tick.tweens id = some tw) : c.tweens id = some tw :=
  (Option.filter_eq_some_iff.mp h).1

theorem WellFormed.tick (hc : WellFormed c) : WellFormed c.tick where
  sprite id htween := by
    obtain ⟨tw, htw⟩ := Option.ne_none_iff_exists'.mp htween
    have hsprite := hc.sprite id (tweens_tick htw ▸ Option.some_ne_none tw)
    exact fun hnone => hsprite (Option.map_eq_none_iff.mp hnone)
  startTime id tw htw := hc.startTime id tw (tweens_tick htw)
  duration id tw htw := hc.duration id tw (tweens_tick htw)
  stage id := by
    show c.stage.count id = ((c.sprites id).map _).elim 0 fun _ => 1
    rw [hc.stage id]
    cases c.sprites id <;> rfl

/-- A frame at which all tweens are over leaves none. -/
theorem tweens_tick_eq_none (hc : WellFormed c)
    (hlate : ∀ tw, c.tweens id = some tw → tw.startTime + 500 ≤ c.lastTime) :
    c.tick.tweens id = none := by
  by_contra hsome
  obtain ⟨tw, htw⟩ := Option.ne_none_iff_exists'.mp hsome
  obtain ⟨htw', hover⟩ := Option.filter_eq_some_iff.mp htw
  rw [(isOver_iff (hc.duration id tw htw') _).mpr (hlate tw htw')] at hover
  exact Bool.false_ne_true hover

/-! ### Runs -/

/-- A step other than the effect. -/
theorem act_of_not_robots (ha : c.act a = some c') (hrobots : a.isRobots = false) :
    c' = c.tick ∨ ∃ t, c.lastTime ≤ t ∧ c' = { c with lastTime := t } := by
  cases a with
  | robots rs => cases hrobots
  | tick => exact Or.inl (Option.some.inj ha).symm
  | clock t =>
    have hclock : (if t < c.lastTime then none else some { c with lastTime := t }) = some c' := ha
    split_ifs at hclock with hback
    exact Or.inr ⟨t, not_lt.mp hback, (Option.some.inj hclock).symm⟩

theorem WellFormed.clock (hc : WellFormed c) {t : ℝ} (ht : c.lastTime ≤ t) :
    WellFormed { c with lastTime := t } where
  sprite := hc.sprite
  startTime id tw htw := (hc.startTime id tw htw).trans ht
  duration := hc.duration
  stage := hc.stage

/-- **Invariant preservation.** -/
theorem WellFormed.act (hc : WellFormed c) (ha : c.act a = some c') : WellFormed c' := by
  by_cases hrobots : a.isRobots = true
  · cases a with
    | robots rs =>
      obtain rfl := Option.some.inj ha
      exact hc.robots rs
    | tick => cases hrobots
    | clock t => cases hrobots
  · rcases act_of_not_robots ha (Bool.not_eq_true _ ▸ hrobots) with rfl | ⟨t, ht, rfl⟩
    · exact hc.tick
    · exact hc.clock ht

/-- What holds after any number of frames: the sprites go where they went, the old tweens are all
there is, and the clock has not gone back. -/
structure Continues (c c' : Canvas ℝ) : Prop where
  wellFormed : WellFormed c'
  lastTime : c.lastTime ≤ c'.lastTime
  heading : ∀ id, c'.heading id = c.heading id
  tweens : ∀ id tw, c'.tweens id = some tw → c.tweens id = some tw

theorem Continues.refl (hc : WellFormed c) : Continues c c :=
  ⟨hc, le_rfl, fun _ => rfl, fun _ _ h => h⟩

theorem Continues.trans {c'' : Canvas ℝ} (h : Continues c c') (h' : Continues c' c'') :
    Continues c c'' where
  wellFormed := h'.wellFormed
  lastTime := h.lastTime.trans h'.lastTime
  heading id := (h'.heading id).trans (h.heading id)
  tweens id tw htw := h.tweens id tw (h'.tweens id tw htw)

theorem Continues.tick (hc : WellFormed c) : Continues c c.tick where
  wellFormed := hc.tick
  lastTime := le_rfl
  heading := hc.heading_tick
  tweens _ _ := tweens_tick

theorem Continues.run {bs : List (CanvasAction ℝ)} (hc : WellFormed c)
    (hrun : (canvasSystem ℝ).Run c bs c') (hbs : ∀ b ∈ bs, b.isRobots = false) :
    Continues c c' := by
  induction hrun with
  | nil => exact .refl hc
  | concat _ hstep ih =>
    have hcont := ih fun b hb => hbs b (List.mem_append_left _ hb)
    refine hcont.trans ?_
    have hlast := hbs _ (List.mem_append_right _ (List.mem_singleton_self _))
    rcases act_of_not_robots hstep hlast with rfl | ⟨t, ht, rfl⟩
    · exact .tick hcont.wellFormed
    · exact ⟨hcont.wellFormed.clock ht, ht, fun _ => rfl, fun _ _ h => h⟩

/-- Each robot has one sprite, which is where the robot is and stays there. -/
def Settled (c : Canvas ℝ) (rs : List (Robot ℝ)) : Prop :=
  ∀ r ∈ rs, c.stage.count r.id = 1 ∧ c.sprites r.id = some r.position ∧ c.tweens r.id = none

/-- A sprite that is at `p` stays there if its tween, if it has one, ends there. -/
theorem heading_eq_iff {p : Vec ℝ} (h : c.sprites id = some p) :
    c.heading id = some p ↔ ∀ tw, c.tweens id = some tw → tw.target = p := by
  unfold heading
  cases c.tweens id with
  | none => exact iff_of_true h nofun
  | some tw =>
    show some tw.target = some p ↔ _
    rw [Option.some_inj]
    exact ⟨by rintro heq _ ⟨⟩; exact heq, fun hall => hall tw rfl⟩

theorem settled_iff_heading (hc : WellFormed c) (htweens : ∀ id, c.tweens id = none) :
    c.Settled rs ↔ ∀ r ∈ rs, c.heading r.id = some r.position := by
  refine forall₂_congr fun r _ => ?_
  unfold heading
  rw [htweens r.id, hc.stage r.id]
  refine ⟨?_, ?_⟩
  · exact fun h => h.2.1
  · intro h
    have hsprite : c.sprites r.id = some r.position := h
    rw [hsprite]
    exact ⟨rfl, rfl, rfl⟩

/-- A late frame after the effect deletes all tweens, so every sprite is where it went. -/
theorem WellFormed.settled_iff {bs bs' : List (CanvasAction ℝ)} {c₁ c₂ : Canvas ℝ}
    (hc : WellFormed c) (hnodup : (rs.map Robot.id).Nodup)
    (hrun₁ : (canvasSystem ℝ).Run (c.robots rs) bs c₁) (hbs : ∀ b ∈ bs, b.isRobots = false)
    (hlate : c.lastTime + 500 ≤ c₁.lastTime) (hrun₂ : (canvasSystem ℝ).Run c₁.tick bs' c₂)
    (hbs' : ∀ b ∈ bs', b.isRobots = false) :
    c₂.Settled rs ↔ ∀ r ∈ rs, c.sprites r.id = some r.position →
      ∀ tw, c.tweens r.id = some tw → tw.target = r.position := by
  have hcont₁ := Continues.run (hc.robots rs) hrun₁ hbs
  have hcont₂ := Continues.run hcont₁.wellFormed.tick hrun₂ hbs'
  have hexpired : ∀ id, c₁.tick.tweens id = none := by
    intro id
    refine tweens_tick_eq_none hcont₁.wellFormed fun tw htw => ?_
    -- no tween was set up after the effect
    have hstart := (hc.robots rs).startTime id tw (hcont₁.tweens id tw htw)
    rw [lastTime_robots] at hstart
    linarith
  have hnone : ∀ id, c₂.tweens id = none := by
    intro id
    by_contra hsome
    obtain ⟨tw, htw⟩ := Option.ne_none_iff_exists'.mp hsome
    exact Option.some_ne_none tw ((hcont₂.tweens id tw htw).symm.trans (hexpired id))
  rw [settled_iff_heading hcont₂.wellFormed hnone]
  refine forall₂_congr fun r hr => ?_
  rw [hcont₂.heading, hcont₁.wellFormed.heading_tick, hcont₁.heading, heading_robots hc hnodup hr]
  split_ifs with hat
  · rw [imp_iff_right hat, heading_eq_iff hat]
  · exact iff_of_true rfl fun h => absurd h hat

theorem WellFormed.run {t : ℝ} {as : List (CanvasAction ℝ)}
    (hrun : (canvasSystem ℝ).Run (Canvas.initial t) as c) : WellFormed c :=
  hrun.invariant (WellFormed.initial t) fun _ _ _ h ha => h.act ha

end Canvas

/-- **When the canvas settles on the robots.** In every run of the canvas whose last change of the
`robots` is to a list with distinct ids, and in which a frame comes `500` ms after it or later:
every robot has one sprite, exactly at its position and without a tween, if and only if at that
change the tween of every sprite that was exactly at its robot's new position, if it had one, ended
there. -/
theorem canvas_settles_iff {t : ℝ} {as bs bs' : List (CanvasAction ℝ)} {c c₁ c₂ : Canvas ℝ}
    {rs : List (Robot ℝ)} (hrun : (canvasSystem ℝ).Run (Canvas.initial t) as c)
    (hnodup : (rs.map Robot.id).Nodup) (hrun₁ : (canvasSystem ℝ).Run (c.robots rs) bs c₁)
    (hbs : ∀ b ∈ bs, b.isRobots = false) (hlate : c.lastTime + 500 ≤ c₁.lastTime)
    (hrun₂ : (canvasSystem ℝ).Run c₁.tick bs' c₂) (hbs' : ∀ b ∈ bs', b.isRobots = false) :
    c₂.Settled rs ↔ ∀ r ∈ rs, c.sprites r.id = some r.position →
      ∀ tw, c.tweens r.id = some tw → tw.target = r.position :=
  (Canvas.WellFormed.run hrun).settled_iff hnodup hrun₁ hbs hlate hrun₂ hbs'

/-- A lone robot at `{ x, 0 }`. -/
noncomputable def robotAt (x : ℝ) : Robot ℝ := ⟨0, ⟨x, 0⟩, Vec.zero⟩

theorem act_clock {c : Canvas ℝ} {t : ℝ} (ht : c.lastTime ≤ t) :
    c.act (.clock t) = some { c with lastTime := t } := if_neg (not_lt.mpr ht)

/-- A robot that moves by `10` px once. -/
theorem canvas_settles_moved :
    ∃ c c₁ : Canvas ℝ, (canvasSystem ℝ).Run (Canvas.initial 0) [.robots [robotAt 0]] c ∧
      (canvasSystem ℝ).Run (c.robots [robotAt 10]) [.clock 500] c₁ ∧
      c₁.tick.Settled [robotAt 10] := by
  have hclock : ((Canvas.initial (0 : ℝ)).robots [robotAt 0]).lastTime + 500 ≤ 500 := by
    rw [Canvas.lastTime_robots]
    show (0 : ℝ) + 500 ≤ 500
    norm_num
  have hrun : (canvasSystem ℝ).Run (Canvas.initial 0) [.robots [robotAt 0]]
      ((Canvas.initial 0).robots [robotAt 0]) := .single rfl
  have hlast : (canvasSystem ℝ).Run (((Canvas.initial 0).robots [robotAt 0]).robots [robotAt 10])
      [.clock 500] _ := .single (act_clock (by rw [Canvas.lastTime_robots]; linarith))
  have hnodup : ([robotAt 10].map Robot.id).Nodup := List.nodup_singleton _
  refine ⟨_, _, hrun, hlast, (canvas_settles_iff hrun hnodup hlast ?_ hclock
    (.nil _) nofun).mpr ?_⟩
  · exact fun b hb => List.mem_singleton.mp hb ▸ rfl
  · -- the sprite is still where the robot was first
    intro r hr hat
    obtain rfl := List.mem_singleton.mp hr
    have hsprite : some (robotAt 0).position = some (robotAt 10).position := hat
    have hx : (0 : ℝ) = 10 := congrArg Vec.x (Option.some.inj hsprite)
    norm_num at hx

/-- A tween of the robot from `{ 0, 0 }` to `{ 10, 0 }`, halfway. -/
theorem exists_halfway :
    ∃ c : Canvas ℝ, (canvasSystem ℝ).Run (Canvas.initial 0)
        [.robots [robotAt 0], .robots [robotAt 10], .clock 250, .tick] c ∧
      c.lastTime = 250 ∧ c.sprites 0 = some ⟨5, 0⟩ ∧ c.tweens 0 = some (.new 0 ⟨0, 0⟩ ⟨10, 0⟩) := by
  obtain ⟨c₀, hc₀⟩ : ∃ c, (Canvas.initial (0 : ℝ)).robots [robotAt 0] = c := ⟨_, rfl⟩
  obtain ⟨c₁, hc₁⟩ : ∃ c, c₀.robots [robotAt 10] = c := ⟨_, rfl⟩
  have htime₀ : c₀.lastTime = 0 := by
    rw [← hc₀, Canvas.lastTime_robots]
    rfl
  have hsprite₀ : c₀.sprites 0 = some ⟨0, 0⟩ := by
    rw [← hc₀]
    rfl
  have hne : (⟨0, 0⟩ : Vec ℝ) ≠ (robotAt 10).position := by
    intro heq
    have hx : (0 : ℝ) = 10 := congrArg Vec.x heq
    norm_num at hx
  -- the second list sets up a tween
  have hshow : c₁ = { c₀ with
      tweens := Function.update c₀.tweens 0 (some (.new c₀.lastTime ⟨0, 0⟩ ⟨10, 0⟩)) } :=
    hc₁.symm.trans (Canvas.showRobot_of_ne hsprite₀ hne)
  have hsprite : c₁.sprites 0 = some ⟨0, 0⟩ := by
    rw [hshow]
    exact hsprite₀
  have htween : c₁.tweens 0 = some (.new 0 ⟨0, 0⟩ ⟨10, 0⟩) := by
    rw [hshow, htime₀]
    exact Function.update_self (0 : ℕ) _ c₀.tweens
  -- of which half is over at the frame
  have hprogress : (Tween.new 0 ⟨0, 0⟩ ⟨10, 0⟩ : Tween ℝ).progress 250 = 1 / 2 := by
    rw [Canvas.progress_eq rfl]
    show min 1 (((250 : ℝ) - 0) / 500) = 1 / 2
    norm_num
  have hover : (Tween.new 0 ⟨0, 0⟩ ⟨10, 0⟩ : Tween ℝ).isOver 250 = false := by
    rw [Bool.eq_false_iff, ne_eq, Canvas.isOver_iff rfl]
    show ¬ (0 : ℝ) + 500 ≤ 250
    norm_num
  refine ⟨Canvas.tick { c₁ with lastTime := 250 }, ?_, rfl, ?_, ?_⟩
  · refine .cons (congrArg some hc₀) (.cons (congrArg some hc₁) ?_)
    refine .cons (act_clock ?_) (.single rfl)
    rw [hshow]
    show c₀.lastTime ≤ 250
    rw [htime₀]
    norm_num
  · show (c₁.sprites 0).map (fun s => (c₁.tweens 0).elim s fun tw =>
      tw.positionAt (tw.progress 250)) = _
    rw [hsprite, htween]
    show some ((Tween.new 0 ⟨0, 0⟩ ⟨10, 0⟩ : Tween ℝ).positionAt _) = _
    rw [hprogress]
    refine congrArg some (Vec.ext ?_ ?_)
    · show (0 : ℝ) + (10 - 0) * (1 / 2) = 5
      norm_num
    · show (0 : ℝ) + (0 - 0) * (1 / 2) = 0
      norm_num
  · show (c₁.tweens 0).filter (fun tw => !tw.isOver 250) = _
    rw [htween, Option.filter_some, hover]
    rfl

/-- A robot that is moved on from `{ 0, 0 }` to `{ 10, 0 }`, and halfway through the tween back to
where its sprite is then. -/
theorem canvas_does_not_settle :
    ¬ ∀ (t : ℝ) (as bs bs' : List (CanvasAction ℝ)) (c c₁ c₂ : Canvas ℝ) (rs : List (Robot ℝ)),
      (canvasSystem ℝ).Run (Canvas.initial t) as c → (rs.map Robot.id).Nodup →
      (∀ rs', .robots rs' ∈ as → rs'.map Robot.id = rs.map Robot.id) →
      (canvasSystem ℝ).Run (c.robots rs) bs c₁ → (∀ b ∈ bs, b.isRobots = false) →
      c.lastTime + 500 ≤ c₁.lastTime → (canvasSystem ℝ).Run c₁.tick bs' c₂ →
      (∀ b ∈ bs', b.isRobots = false) → c₂.Settled rs := by
  intro h
  obtain ⟨c, hrun, htime, hsprite, htween⟩ := exists_halfway
  have hnodup : ([robotAt 5].map Robot.id).Nodup := List.nodup_singleton _
  have hclock : (canvasSystem ℝ).Run (c.robots [robotAt 5]) [.clock 750] _ :=
    .single (act_clock (by rw [Canvas.lastTime_robots, htime]; norm_num))
  have hfree : ∀ b ∈ [CanvasAction.clock (750 : ℝ)], b.isRobots = false :=
    fun b hb => List.mem_singleton.mp hb ▸ rfl
  have hlate : c.lastTime + 500 ≤ 750 := by
    rw [htime]
    norm_num
  have hsettled := h 0 _ _ _ _ _ _ [robotAt 5] hrun hnodup (by simp [robotAt]) hclock hfree hlate
    (.nil _) nofun
  have htarget := ((Canvas.WellFormed.run hrun).settled_iff hnodup hclock hfree hlate (.nil _)
    nofun).mp hsettled (robotAt 5) List.mem_cons_self hsprite _ htween
  have hx : (10 : ℝ) = 5 := congrArg Vec.x htarget
  norm_num at hx

end SwarmBase
