import Mathlib.Analysis.Convex.Hull
import SwarmBase.Ui.Canvas

/-!
# Where the canvas can draw a robot

A tween is set up from wherever the sprite is to the new position of its robot, also in the middle
of an older one, and a frame has the sprite somewhere between the two ends. So whatever is
interrupted by what, and however frames and changes of the `robots` alternate, a sprite is always
between positions that its robot has had.

* `sprites_within_hull` — in the convex hull of them, and there is one sprite for every robot ever
  given.
-/

namespace SwarmBase

open Framework

/-- The positions given for a robot by the steps of a run. -/
def given {K : Type} (as : List (CanvasAction K)) (id : ℕ) : Set (Vec K) :=
  {p | ∃ rs, .robots rs ∈ as ∧ ∃ r ∈ rs, r.id = id ∧ r.position = p}

theorem given_mono {K : Type} (as bs : List (CanvasAction K)) (id : ℕ) :
    given as id ⊆ given (as ++ bs) id := by
  rintro p ⟨rs, hrs, hr⟩
  exact ⟨rs, List.mem_append_left _ hrs, hr⟩

theorem given_of_not_robots {K : Type} {as : List (CanvasAction K)} {a : CanvasAction K}
    (ha : a.isRobots = false) (id : ℕ) : given (as ++ [a]) id = given as id := by
  refine Set.Subset.antisymm ?_ (given_mono as [a] id)
  rintro p ⟨rs, hrs, hr⟩
  rcases List.mem_append.mp hrs with hrs | hlast
  · exact ⟨rs, hrs, hr⟩
  · obtain rfl := List.mem_singleton.mp hlast
    cases ha

namespace Canvas

variable {c c' : Canvas ℝ} {rs : List (Robot ℝ)} {r : Robot ℝ} {id : ℕ} {tw : Tween ℝ}
  {a : CanvasAction ℝ} {as : List (CanvasAction ℝ)} {H H' : ℕ → Set (Vec ℝ)}

/-- Every sprite is in the region of its robot, and so are both ends of its tween. -/
structure Within (H : ℕ → Set (Vec ℝ)) (c : Canvas ℝ) : Prop where
  sprite : ∀ id s, c.sprites id = some s → s ∈ H id
  start : ∀ id tw, c.tweens id = some tw → tw.start ∈ H id
  target : ∀ id tw, c.tweens id = some tw → tw.target ∈ H id

theorem Within.mono (h : Within H c) (hH : ∀ id, H id ⊆ H' id) : Within H' c where
  sprite id s hs := hH id (h.sprite id s hs)
  start id tw htw := hH id (h.start id tw htw)
  target id tw htw := hH id (h.target id tw htw)

/-- A sprite was there, or is put at the position of its robot. -/
theorem sprites_showRobot_cases {s : Vec ℝ} (h : (c.showRobot r).sprites id = some s) :
    c.sprites id = some s ∨ (id = r.id ∧ s = r.position) := by
  rcases showRobot_cases c r with hnone | hat | ⟨s', hs', hne⟩
  · rw [showRobot_of_none hnone] at h
    dsimp only at h
    by_cases hid : id = r.id
    · subst hid
      rw [Function.update_self] at h
      exact Or.inr ⟨rfl, (Option.some.inj h).symm⟩
    · rw [Function.update_of_ne hid] at h
      exact Or.inl h
  · rw [showRobot_of_eq hat] at h
    exact Or.inl h
  · rw [showRobot_of_ne hs' hne] at h
    exact Or.inl h

/-- A tween was there, or leads from where the sprite is to the position of its robot. -/
theorem tweens_showRobot_cases (h : (c.showRobot r).tweens id = some tw) :
    c.tweens id = some tw ∨
      (id = r.id ∧ ∃ s, c.sprites id = some s ∧ tw = .new c.lastTime s r.position) := by
  by_cases hid : id = r.id
  · exact (tweens_showRobot h).imp_right fun hnew => ⟨hid, hnew⟩
  · rw [(showRobot_other c hid).2] at h
    exact Or.inl h

theorem Within.showRobot (h : Within H c) (hr : r.position ∈ H r.id) :
    Within H (c.showRobot r) where
  sprite id s hs := by
    rcases sprites_showRobot_cases hs with hold | ⟨rfl, rfl⟩
    · exact h.sprite id s hold
    · exact hr
  start id tw htw := by
    rcases tweens_showRobot_cases htw with hold | ⟨rfl, s, hs, rfl⟩
    · exact h.start id tw hold
    · -- a tween starts where the sprite is, wherever that is
      exact h.sprite r.id s hs
  target id tw htw := by
    rcases tweens_showRobot_cases htw with hold | ⟨rfl, s, hs, rfl⟩
    · exact h.target id tw hold
    · exact hr

theorem Within.robots (h : Within H c) (hrs : ∀ r ∈ rs, r.position ∈ H r.id) :
    Within H (c.robots rs) := by
  unfold Canvas.robots
  induction rs generalizing c with
  | nil => exact h
  | cons r rs ih =>
    obtain ⟨hr, hrs⟩ := List.forall_mem_cons.mp hrs
    exact ih (h.showRobot hr) hrs

/-- A frame has a sprite between the two ends of its tween. -/
theorem positionAt_mem {s : Set (Vec ℝ)} (hs : Convex ℝ s) (hstart : tw.start ∈ s)
    (htarget : tw.target ∈ s) (hdur : tw.duration = 0.5) {now : ℝ} (hnow : tw.startTime ≤ now) :
    tw.positionAt (tw.progress now) ∈ s := by
  have hposition : tw.positionAt (tw.progress now) =
      tw.start + tw.progress now • (tw.target - tw.start) := by
    refine Vec.ext ?_ ?_
    · rw [Vec.add_x, Vec.smul_x, Vec.sub_x, mul_comm]
      rfl
    · rw [Vec.add_y, Vec.smul_y, Vec.sub_y, mul_comm]
      rfl
  -- the progress is between `0` and `1`, since time does not go back
  rw [hposition]
  refine hs.add_smul_sub_mem hstart htarget ⟨?_, ?_⟩
  · rw [progress_eq hdur]
    exact le_min zero_le_one (div_nonneg (sub_nonneg.mpr hnow) (by norm_num))
  · rw [progress_eq hdur]
    exact min_le_left _ _

theorem Within.tick (hc : WellFormed c) (h : Within H c) (hH : ∀ id, Convex ℝ (H id)) :
    Within H c.tick where
  sprite id s hs := by
    obtain ⟨s', hs', rfl⟩ := Option.map_eq_some_iff.mp hs
    cases htween : c.tweens id with
    | none => exact h.sprite id s' hs'
    | some tw =>
      exact positionAt_mem (hH id) (h.start id tw htween) (h.target id tw htween)
        (hc.duration id tw htween) (hc.startTime id tw htween)
  start id tw htw := h.start id tw (tweens_tick htw)
  target id tw htw := h.target id tw (tweens_tick htw)

/-! ### Which robots have a sprite -/

theorem sprites_showRobot_isSome (c : Canvas ℝ) (r : Robot ℝ) (id : ℕ) :
    ((c.showRobot r).sprites id).isSome ↔ (c.sprites id).isSome ∨ id = r.id := by
  by_cases hid : id = r.id
  · subst hid
    refine iff_of_true ?_ (Or.inr rfl)
    rcases showRobot_cases c r with hnone | hat | ⟨s, hs, hne⟩
    · rw [showRobot_of_none hnone]
      dsimp only
      rw [Function.update_self]
      rfl
    · rw [showRobot_of_eq hat, hat]
      rfl
    · rw [sprites_showRobot hs r]
      rfl
  · rw [(showRobot_other c hid).1, or_iff_left hid]

theorem sprites_robots_isSome (c : Canvas ℝ) (rs : List (Robot ℝ)) (id : ℕ) :
    ((c.robots rs).sprites id).isSome ↔ (c.sprites id).isSome ∨ ∃ r ∈ rs, r.id = id := by
  unfold Canvas.robots
  induction rs generalizing c with
  | nil => simp
  | cons r rs ih =>
    have hid : id = r.id ↔ r.id = id := eq_comm
    rw [List.foldl_cons, ih, sprites_showRobot_isSome, List.exists_mem_cons_iff, or_assoc, hid]

/-! ### Runs -/

/-- The invariant of a run. -/
structure Drawn (as : List (CanvasAction ℝ)) (c : Canvas ℝ) : Prop where
  wellFormed : WellFormed c
  within : Within (fun id => convexHull ℝ (given as id)) c
  isSome_iff : ∀ id, (c.sprites id).isSome ↔ (given as id).Nonempty

theorem Drawn.initial (t : ℝ) : Drawn [] (Canvas.initial t) where
  wellFormed := .initial t
  within := ⟨nofun, nofun, nofun⟩
  isSome_iff id := by
    refine iff_of_false Bool.false_ne_true ?_
    rintro ⟨p, rs, hrs, -⟩
    cases hrs

theorem Drawn.robots (h : Drawn as c) (rs : List (Robot ℝ)) :
    Drawn (as ++ [.robots rs]) (c.robots rs) where
  wellFormed := h.wellFormed.robots rs
  within := by
    -- what was given before is given still
    refine (h.within.mono fun id => convexHull_mono (given_mono as [.robots rs] id)).robots ?_
    intro r hr
    refine subset_convexHull ℝ _ ⟨rs, ?_, r, hr, rfl, rfl⟩
    exact List.mem_append_right _ (List.mem_singleton_self _)
  isSome_iff id := by
    rw [sprites_robots_isSome, h.isSome_iff]
    refine ⟨?_, ?_⟩
    · rintro (hold | ⟨r, hr, hid⟩)
      · exact hold.mono (given_mono as _ id)
      · exact ⟨r.position, rs, List.mem_append_right _ (List.mem_singleton_self _), r, hr, hid, rfl⟩
    · rintro ⟨p, rs', hrs', r, hr, hid, hp⟩
      rcases List.mem_append.mp hrs' with hold | hlast
      · exact Or.inl ⟨p, rs', hold, r, hr, hid, hp⟩
      · obtain rfl := CanvasAction.robots.inj (List.mem_singleton.mp hlast)
        exact Or.inr ⟨r, hr, hid⟩

/-- **Invariant preservation.** -/
theorem Drawn.act (h : Drawn as c) (ha : c.act a = some c') : Drawn (as ++ [a]) c' := by
  by_cases hrobots : a.isRobots = true
  · cases a with
    | robots rs =>
      obtain rfl := Option.some.inj ha
      exact h.robots rs
    | tick | clock => cases hrobots
  · rw [Bool.not_eq_true] at hrobots
    have hgiven : ∀ id, given (as ++ [a]) id = given as id := given_of_not_robots hrobots
    refine ⟨h.wellFormed.act ha, ?_, ?_⟩
    · simp only [hgiven]
      obtain rfl | ⟨t, -, rfl⟩ := act_of_not_robots ha hrobots
      · exact h.within.tick h.wellFormed fun id => convex_convexHull ℝ _
      · exact ⟨h.within.sprite, h.within.start, h.within.target⟩
    · intro id
      rw [hgiven, ← h.isSome_iff]
      obtain rfl | ⟨t, -, rfl⟩ := act_of_not_robots ha hrobots
      · exact Bool.eq_iff_iff.mp Option.isSome_map
      · exact Iff.rfl

end Canvas

/-- **Sprites stay among the positions of their robots.** In every run of the canvas, whatever
changes of the `robots`, frames and moves of the clock it is made of, and at every point of it:
exactly the robots given so far have a sprite, which is on the stage once, and the sprite of a robot
is in the convex hull of the positions given for that robot. -/
theorem sprites_within_hull {t : ℝ} {as : List (CanvasAction ℝ)} {c : Canvas ℝ}
    (hrun : (canvasSystem ℝ).Run (Canvas.initial t) as c) (id : ℕ) :
    ((c.sprites id).isSome ↔ (given as id).Nonempty) ∧
    (c.stage.count id = if (c.sprites id).isSome then 1 else 0) ∧
    ∀ s, c.sprites id = some s → s ∈ convexHull ℝ (given as id) := by
  have h : Canvas.Drawn as c := by
    refine hrun.induction (P := Canvas.Drawn) (.initial t) ?_
    intro as c a c' _ hdrawn ha
    exact hdrawn.act ha
  refine ⟨h.isSome_iff id, ?_, h.within.sprite id⟩
  rw [h.wellFormed.stage id]
  cases c.sprites id <;> rfl

/-- A tween that is interrupted halfway. -/
theorem sprites_within_hull_halfway :
    ∃ c : Canvas ℝ, c.sprites 0 = some ⟨5, 0⟩ ∧
      let as : List (CanvasAction ℝ) :=
        [.robots [robotAt 0], .robots [robotAt 10], .clock 250, .tick]
      ((c.sprites 0).isSome ↔ (given as 0).Nonempty) ∧
      (c.stage.count 0 = if (c.sprites 0).isSome then 1 else 0) ∧
      ∀ s, c.sprites 0 = some s → s ∈ convexHull ℝ (given as 0) := by
  obtain ⟨c, hrun, -, hsprite, -⟩ := exists_halfway
  exact ⟨c, hsprite, sprites_within_hull hrun 0⟩

end SwarmBase
