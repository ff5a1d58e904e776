import Mathlib.Algebra.Order.Round
import SwarmBase.World.Model

/-!
# A click on the canvas

`RobotCanvas.tsx` turns the client coordinates of a mouse click into coordinates of the canvas,
which the browser may show at any place and in any size, and rounds them. The page sends them to the
chain, and reads them back off the event of the pull.

Not every command survives that way (`meaning_preserved_iff`). What the canvas can send does. But it
is not exactly where the click was made: the style of the canvas gives it a border, which the
rectangle that the handler scales by includes, and the picture does not.

* `click_reaches_target` — a click on the picture moves the robots to within half a pixel of where
  it was made, and the share of the border in the rectangle.
-/

namespace SwarmBase

open Framework

section Click

variable {K : Type} [Field K] [LinearOrder K] [FloorRing K]

/-- `getBoundingClientRect()`. -/
structure Rect (K : Type) where
  left : K
  top : K
  width : K
  height : K

/-- The size of the renderer, as `app.init` sets it. -/
def rendererWidth : ℕ := 800

def rendererHeight : ℕ := 600

/-- The width of the border of `.pixi-canvas`. -/
def border : ℕ := 2

namespace Rect

/-- The click handler of the canvas. `Math.round` rounds a half up. -/
def handleClick (rect : Rect K) (clientX clientY : K) : ℤ × ℤ :=
  let x := (clientX - rect.left) / rect.width * rendererWidth
  let y := (clientY - rect.top) / rect.height * rendererHeight
  (round x, round y)

/-- The rectangle of the picture: what the border leaves. -/
def picture (rect : Rect K) : Rect K where
  left := rect.left + border
  top := rect.top + border
  width := rect.width - (2 * border : ℕ)
  height := rect.height - (2 * border : ℕ)

/-- The point of the picture that is shown at a client point. -/
def shown (rect : Rect K) (clientX clientY : K) : Vec K where
  x := (clientX - rect.picture.left) / rect.picture.width * rendererWidth
  y := (clientY - rect.picture.top) / rect.picture.height * rendererHeight

/-- Where mouse clicks on the canvas are made. -/
structure Contains (rect : Rect K) (clientX clientY : K) : Prop where
  left_le : rect.left ≤ clientX
  le_right : clientX ≤ rect.left + rect.width
  top_le : rect.top ≤ clientY
  le_bottom : clientY ≤ rect.top + rect.height

end Rect

variable [IsStrictOrderedRing K]

/-- A length of the client, scaled to a length of `n` pixels and rounded, is one of the first
`n + 1` pixels. -/
theorem round_scale_mem {a d : K} (hd : 0 < d) (ha : 0 ≤ a) (had : a ≤ d) (n : ℕ) :
    0 ≤ round (a / d * n) ∧ round (a / d * n) ≤ n := by
  have hn : (0 : K) ≤ n := Nat.cast_nonneg n
  have hlow : 0 ≤ a / d * n := mul_nonneg (div_nonneg ha hd.le) hn
  have hhigh : a / d * n ≤ n := mul_le_of_le_one_left hn ((div_le_one hd).mpr had)
  refine ⟨?_, ?_⟩
  · rw [round_eq, Int.floor_nonneg]
    linarith
  · rw [round_eq, ← Int.lt_add_one_iff, Int.floor_lt]
    push_cast
    linarith

/-- Scaled by all of a length `d` or by what a border `b` on both sides leaves of it, a point
between the borders comes out at places that differ by at most the share of the border. -/
theorem abs_scale_sub_scale_le {a b d n : K} (hb : 0 ≤ b) (hd : 0 < d - 2 * b) (hn : 0 ≤ n)
    (ha : b ≤ a) (had : a ≤ d - b) :
    |(a - b) / (d - 2 * b) * n - a / d * n| ≤ b * n / d := by
  have hd' : 0 < d := by linarith
  have hne : d - 2 * b ≠ 0 := hd.ne'
  have hdiff : (a - b) / (d - 2 * b) * n - a / d * n =
      (2 * a - d) / (d - 2 * b) * (b * n / d) := by
    rw [div_mul_eq_mul_div, div_mul_eq_mul_div, div_sub_div _ _ hne hd'.ne', div_mul_div_comm]
    congr 1
    ring
  -- where the point is between the borders, from `-1` to `1`
  have hratio : |(2 * a - d) / (d - 2 * b)| ≤ 1 := by
    rw [abs_le, le_div_iff₀ hd, div_le_iff₀ hd]
    exact ⟨by linarith, by linarith⟩
  have hshare : 0 ≤ b * n / d := div_nonneg (mul_nonneg hb hn) hd'.le
  calc |(a - b) / (d - 2 * b) * n - a / d * n|
      = |(2 * a - d) / (d - 2 * b)| * (b * n / d) := by rw [hdiff, abs_mul, abs_of_nonneg hshare]
    _ ≤ b * n / d := mul_le_of_le_one_left hshare hratio

omit [LinearOrder K] [FloorRing K] [IsStrictOrderedRing K] in
theorem two_mul_border : ((2 * border : ℕ) : K) = 2 * (border : K) := by
  rw [Nat.cast_mul, Nat.cast_ofNat]

omit [FloorRing K] in
/-- A point on the picture, which starts after one border and is two borders smaller, is a border
away from where the rectangle ends. -/
theorem sub_le_sub_border {a start d : K}
    (h : a ≤ start + border + (d - (2 * border : ℕ))) : a - start ≤ d - border := by
  rw [two_mul_border] at h
  linarith

/-- The pixel that a point is rounded to when it is scaled by all of the length is near where it is
shown. -/
theorem abs_shown_sub_le {a d : K} {n k : ℕ} (hd : 0 < d - 2 * border) (ha : (border : K) ≤ a)
    (had : a ≤ d - border) (hk : (k : ℤ) = round (a / d * n)) :
    |(a - border) / (d - 2 * border) * n - k| ≤ border * n / d + 1 / 2 := by
  have hk' : (k : K) = round (a / d * n) := by exact_mod_cast congrArg (Int.cast (R := K)) hk
  calc |(a - border) / (d - 2 * border) * n - k|
      ≤ |(a - border) / (d - 2 * border) * n - a / d * n| + |a / d * n - k| := abs_sub_le _ _ _
    _ ≤ border * n / d + 1 / 2 := by
        refine add_le_add ?_ ?_
        · exact abs_scale_sub_scale_le (Nat.cast_nonneg _) hd (Nat.cast_nonneg n) ha had
        · rw [hk']
          exact abs_sub_round _

theorem encodeGoToLocation_of_lt {x y : ℤ} (hx : 0 ≤ x) (hx' : x < 1000) (hy : 0 ≤ y)
    (hy' : y < 1000) : ∃ c : Coordinate, encodeGoToLocation x y = some (.goToLocation c) ∧
      (c.x.toNat : ℤ) = x ∧ (c.y.toNat : ℤ) = y := by
  obtain ⟨cx, hcx⟩ : ∃ n, u32OfInt x = some n := ⟨_, if_pos ⟨hx, by omega⟩⟩
  obtain ⟨cy, hcy⟩ : ∃ n, u32OfInt y = some n := ⟨_, if_pos ⟨hy, by omega⟩⟩
  have henc : encodeGoToLocation x y = some (.goToLocation ⟨cx, cy⟩) := by
    unfold encodeGoToLocation
    rw [hcx, hcy]
    rfl
  exact ⟨⟨cx, cy⟩, henc, encodeGoToLocation_eq_some henc⟩

/-- What becomes of a click of which the page that is ready makes the location `c`. -/
structure Rect.Sends (rect : Rect K) (clientX clientY : K) (c : Coordinate) : Prop where
  /-- It is sent to the chain. -/
  sent : ∀ (k : Closure K) click, k.ready = true →
    k.handleCanvasClick click (rect.handleClick clientX clientY).1
        (rect.handleClick clientX clientY).2 =
      ([.setLoading true], [.submit (.enqueue click (.goToLocation c) k)])
  /-- Whichever robot pulls it, the page moves its robots there. -/
  moved : ∀ r before, targetAfter before (handlerUpdates [eventRecord
      (.commandPulled r (.goToLocation c) (Swarm.coordinate (.goToLocation c)))]) =
    some ⟨.val c.x.toNat, .val c.y.toNat⟩
  le_width : c.x.toNat ≤ rendererWidth
  le_height : c.y.toNat ≤ rendererHeight
  /-- If the click is on the picture, it is near what is shown there. -/
  near : rect.picture.Contains clientX clientY →
    |(rect.shown clientX clientY).x - c.x.toNat| ≤ border * rendererWidth / rect.width + 1 / 2 ∧
      |(rect.shown clientX clientY).y - c.y.toNat| ≤
        border * rendererHeight / rect.height + 1 / 2

/-- **From the mouse to the robots.** Wherever and in whatever size the browser shows the canvas,
and wherever on it the click is made, the border included: the page that is ready sends a
`GoToLocation` of a point of the canvas to the chain, and whichever robot pulls it and whatever the
target before, the page that receives the event moves its robots to exactly the pixel that was sent.
If the click was made on the picture, it is within half a pixel and the share of the border of what
is shown there, in both directions. -/
theorem click_reaches_target (rect : Rect K) (clientX clientY : K)
    (hwidth : 0 < rect.picture.width) (hheight : 0 < rect.picture.height)
    (hclick : rect.Contains clientX clientY) :
    ∃ c, rect.Sends clientX clientY c := by
  have hborder : (0 : K) ≤ border := Nat.cast_nonneg _
  have hw : 0 < rect.width - 2 * border := by rw [← two_mul_border]; exact hwidth
  have hh : 0 < rect.height - 2 * border := by rw [← two_mul_border]; exact hheight
  set x := (clientX - rect.left) / rect.width * rendererWidth with hxdef
  set y := (clientY - rect.top) / rect.height * rendererHeight with hydef
  obtain ⟨hx, hx'⟩ : 0 ≤ round x ∧ round x ≤ rendererWidth :=
    round_scale_mem (by linarith) (sub_nonneg.mpr hclick.left_le)
      (sub_le_iff_le_add'.mpr hclick.le_right) rendererWidth
  obtain ⟨hy, hy'⟩ : 0 ≤ round y ∧ round y ≤ rendererHeight :=
    round_scale_mem (by linarith) (sub_nonneg.mpr hclick.top_le)
      (sub_le_iff_le_add'.mpr hclick.le_bottom) rendererHeight
  obtain ⟨c, henc, hcx, hcy⟩ := encodeGoToLocation_of_lt (x := round x) (y := round y) hx
    (hx'.trans_lt (by decide)) hy (hy'.trans_lt (by decide))
  have hle : c.x.toNat ≤ rendererWidth := by omega
  have hle' : c.y.toNat ≤ rendererHeight := by omega
  refine ⟨c, ?_, ?_, hle, hle', ?_⟩
  · intro k click hready
    show k.handleCanvasClick click (round x) (round y) = _
    unfold Closure.handleCanvasClick
    rw [hready, henc]
    rfl
  · -- the renderer is less than 1000 pixels wide and high
    have hsmall : c.x.toNat < 1000 ∧ c.y.toNat < 1000 :=
      ⟨hle.trans_lt (by decide), hle'.trans_lt (by decide)⟩
    intro r before
    rw [targetAfter_pulled, decodedTarget, (readBack_eq_val_iff c.x).mpr hsmall.1,
      (readBack_eq_val_iff c.y).mpr hsmall.2]
  · intro hpicture
    have ha : (border : K) ≤ clientX - rect.left := le_sub_iff_add_le'.mpr hpicture.left_le
    have hb : (border : K) ≤ clientY - rect.top := le_sub_iff_add_le'.mpr hpicture.top_le
    have had := sub_le_sub_border hpicture.le_right
    have hbd := sub_le_sub_border hpicture.le_bottom
    unfold Rect.shown Rect.picture
    dsimp only
    rw [two_mul_border, ← sub_sub, ← sub_sub]
    exact ⟨abs_shown_sub_le hw ha had hcx, abs_shown_sub_le hh hb hbd hcy⟩

/-- The corner of the picture, shown in its own size, is two pixels off. -/
theorem click_reaches_target_corner :
    let rect : Rect ℚ := ⟨10, 20, 804, 604⟩
    rect.shown 12 22 = ⟨0, 0⟩ ∧ rect.handleClick 12 22 = (2, 2) ∧ ∃ c, rect.Sends 12 22 c := by
  intro rect
  have hcontains : rect.Contains 12 22 :=
    ⟨by decide +kernel, by decide +kernel, by decide +kernel, by decide +kernel⟩
  exact ⟨by decide +kernel, by decide +kernel,
    click_reaches_target rect 12 22 (by decide +kernel) (by decide +kernel) hcontains⟩

end Click

end SwarmBase
