import SwarmBase.Ui.Coincident
import SwarmBase.Ui.PotentialField

/-!
# When a Potential Field robot arrives

A robot that no other pushes moves on a straight line to the target. A tick takes `4` px off its
distance from `50` px on and `8` percent below that (`PotentialField.left`), until it is within the
stopping distance, where it rests. So how many ticks it needs can be read off its distance, and the
distances from which `n` ticks are enough are those up to `PotentialField.reach n`: with the `120`
ticks of an animation, `419` px.

* `unpushed_arrives_iff` — a robot that nobody pushes, in any swarm;
* `registered_swarm_arrives_iff` — the robots registered before the first tick are in one place,
  where they do not push each other, so they arrive as one.
-/

namespace SwarmBase

open Framework

namespace PotentialField

variable {rs : List (Robot ℝ)} {r : Robot ℝ} {t : Vec ℝ} {d y : ℝ} {i n : ℕ}

/-! ### Distances -/

/-- What a tick leaves of the distance of a robot that nobody pushes. -/
noncomputable def left (d : ℝ) : ℝ :=
  if stoppingDist < d then d - damping * min (d * attGain) maxSpeed else d

theorem left_eq (d : ℝ) : left d = if 5 < d then d - 0.8 * min (d / 10) 5 else d := by
  unfold left
  rw [mul_attGain]
  rfl

theorem left_of_le (h : d ≤ 5) : left d = d := by
  rw [left_eq, if_neg (not_lt.mpr h)]

theorem left_of_near (h : 5 < d) (h' : d ≤ 50) : left d = 0.92 * d := by
  rw [left_eq, if_pos h, min_eq_left (by linarith)]
  ring

theorem left_of_far (h : 50 ≤ d) : left d = d - 4 := by
  rw [left_eq, if_pos (by linarith), min_eq_right (by linarith)]
  ring

theorem left_nonneg (h : 0 ≤ d) : 0 ≤ left d := by
  rcases le_or_gt d 5 with hrest | hmove
  · rwa [left_of_le hrest]
  rcases le_total d 50 with hnear | hfar
  · rw [left_of_near hmove hnear]
    positivity
  · rw [left_of_far hfar]
    linarith

theorem left_le (d : ℝ) : left d ≤ d := by
  rcases le_or_gt d 5 with hrest | hmove
  · exact (left_of_le hrest).le
  rcases le_total d 50 with hnear | hfar
  · rw [left_of_near hmove hnear]
    linarith
  · rw [left_of_far hfar]
    linarith

/-- A robot that moves does not come much closer than it has to. -/
theorem lt_left (h : 4.6 < d) : 4.6 < left d := by
  rcases le_or_gt d 5 with hrest | hmove
  · rwa [left_of_le hrest]
  rcases le_total d 50 with hnear | hfar
  · rw [left_of_near hmove hnear]
    linarith
  · rw [left_of_far hfar]
    linarith

/-- The distances that a tick brings to `y` or below. -/
theorem left_le_iff (hy : 5 ≤ y) : left d ≤ y ↔ d ≤ if y ≤ 46 then y / 0.92 else y + 4 := by
  have hdiv : d ≤ y / 0.92 ↔ 0.92 * d ≤ y := by
    rw [le_div_iff₀ (by norm_num), mul_comm]
  rcases le_or_gt d 5 with hrest | hmove
  · refine iff_of_true (by rw [left_of_le hrest]; linarith) ?_
    split_ifs
    · rw [hdiv]
      linarith
    · linarith
  -- `50` px are `46` px after a tick, on either side of the speed limit
  rcases le_total d 50 with hnear | hfar
  · rw [left_of_near hmove hnear]
    split_ifs with h46
    · exact hdiv.symm
    · exact iff_of_true (by linarith) (by linarith)
  · rw [left_of_far hfar]
    split_ifs with h46
    · rw [hdiv]
      refine ⟨fun h => ?_, fun h => ?_⟩
      · linarith
      · linarith
    · exact ⟨fun h => by linarith, fun h => by linarith⟩

/-- The longest distance from which `n` ticks end within the stopping distance: `27` ticks of a
fixed ratio at the end, and before them a fixed speed. -/
noncomputable def reach (n : ℕ) : ℝ :=
  stoppingDist / (1 - damping * attGain) ^ min n 27 + damping * maxSpeed * (n - 27 : ℕ)

theorem reach_eq (n : ℕ) : reach n = 5 / 0.92 ^ min n 27 + 4 * (n - 27 : ℕ) := by
  have hratio : (1 - damping * attGain : ℝ) = 0.92 := by
    show (1 - 0.8 * 0.1 : ℝ) = 0.92
    norm_num
  have hspeed : (damping * maxSpeed : ℝ) = 4 := by
    show (0.8 * 5 : ℝ) = 4
    norm_num
  unfold reach
  rw [hratio, hspeed]
  rfl

theorem reach_succ (n : ℕ) :
    reach (n + 1) = if reach n ≤ 46 then reach n / 0.92 else reach n + 4 := by
  rw [reach_eq, reach_eq]
  rcases lt_or_ge n 27 with hlt | hge
  · -- with fewer than `27` ticks the distance is below `46` px
    have hpow : (0.92 : ℝ) ^ 26 ≤ 0.92 ^ n :=
      pow_le_pow_of_le_one (by norm_num) (by norm_num) (by omega)
    have hle : 5 / (0.92 : ℝ) ^ n ≤ 46 := by
      rw [div_le_iff₀ (by positivity)]
      calc (5 : ℝ) ≤ 46 * 0.92 ^ 26 := by norm_num
        _ ≤ 46 * 0.92 ^ n := by linarith
    rw [min_eq_left hlt.le, min_eq_left (by omega : n + 1 ≤ 27), Nat.sub_eq_zero_of_le hlt.le,
      Nat.sub_eq_zero_of_le (by omega : n + 1 ≤ 27), Nat.cast_zero, mul_zero, add_zero, add_zero,
      if_pos hle, pow_succ, div_div]
  · -- and with `27` or more it is above
    have hgt : (46 : ℝ) < 5 / 0.92 ^ 27 + 4 * (n - 27 : ℕ) := by
      have hfirst : (46 : ℝ) < 5 / 0.92 ^ 27 := by norm_num
      have hrest : (0 : ℝ) ≤ 4 * (n - 27 : ℕ) := by positivity
      linarith
    rw [min_eq_right hge, min_eq_right (by omega : 27 ≤ n + 1), if_neg (not_le.mpr hgt),
      Nat.sub_add_comm hge, Nat.cast_succ]
    ring

theorem le_reach (n : ℕ) : 5 ≤ reach n := by
  rw [reach_eq]
  have hpow : (0.92 : ℝ) ^ min n 27 ≤ 1 := pow_le_one₀ (by norm_num) (by norm_num)
  have hfirst : 5 ≤ 5 / (0.92 : ℝ) ^ min n 27 := by
    rw [le_div_iff₀ (by positivity)]
    linarith
  have hrest : (0 : ℝ) ≤ 4 * (n - 27 : ℕ) := by positivity
  linarith

/-- How far `n` ticks reach. -/
theorem iterate_left_le_iff (n : ℕ) (d : ℝ) : left^[n] d ≤ 5 ↔ d ≤ reach n := by
  induction n generalizing d with
  | zero =>
    rw [Function.iterate_zero_apply, reach_eq]
    norm_num
  | succ n ih =>
    -- the first tick has to bring it within the reach of the others
    rw [Function.iterate_succ_apply, ih, left_le_iff (le_reach n), reach_succ]

/-! ### The way of a robot that nobody pushes -/

/-- The way to the target is shortened, and keeps its direction. -/
theorem sub_position_of_unpushed (h : Unpushed rs r) (t : Vec ℝ) :
    t - (move t.x t.y rs r).position =
      (left ‖t - r.position‖ / ‖t - r.position‖) • (t - r.position) := by
  have hposition : (move t.x t.y rs r).position = r.position + (0.8 : ℝ) • pull t r.position := by
    rw [← force_of_unpushed h, ← position_move_sub, add_sub_cancel]
  rw [hposition, pull_eq, left_eq]
  split_ifs with hfar
  · -- what the pull takes off the distance it takes off the way
    have hne : ‖t - r.position‖ ≠ 0 := by linarith
    rw [smul_smul, sub_div, div_self hne, sub_smul, one_smul, mul_div_assoc, sub_add_eq_sub_sub]
  · -- within the stopping distance it rests
    rw [smul_zero, add_zero, norm_div_norm_smul]

/-- The robots after `n` ticks with one target. -/
def ticks {K : Type} [JsArith K] (t : Vec K) (n : ℕ) (rs : List (Robot K)) : List (Robot K) :=
  (fun rs => (SwarmAction.potential t).apply rs)^[n] rs

theorem ticks_succ (t : Vec ℝ) (n : ℕ) (rs : List (Robot ℝ)) :
    ticks t (n + 1) rs = (ticks t n rs).map (move t.x t.y (ticks t n rs)) :=
  Function.iterate_succ_apply' _ n rs

theorem length_ticks (t : Vec ℝ) (n : ℕ) (rs : List (Robot ℝ)) :
    (ticks t n rs).length = rs.length := by
  induction n with
  | zero => rfl
  | succ n ih => rw [ticks_succ, List.length_map, ih]

/-- Where a robot is that started at `r`, after `n` ticks in which nobody pushed it. -/
structure Approached (t : Vec ℝ) (n : ℕ) (r q : Robot ℝ) : Prop where
  id : q.id = r.id
  velocity : q.velocity = r.velocity
  position : t - q.position = (left^[n] ‖t - r.position‖ / ‖t - r.position‖) • (t - r.position)

theorem iterate_left_mem (n : ℕ) (h : 0 ≤ d) : 0 ≤ left^[n] d ∧ left^[n] d ≤ d := by
  induction n with
  | zero => exact ⟨h, le_refl d⟩
  | succ n ih =>
    rw [Function.iterate_succ_apply']
    exact ⟨left_nonneg ih.1, (left_le _).trans ih.2⟩

theorem lt_iterate_left (n : ℕ) (h : 4.6 < d) : 4.6 < left^[n] d := by
  induction n with
  | zero => exact h
  | succ n ih =>
    rw [Function.iterate_succ_apply']
    exact lt_left ih

theorem Approached.norm_eq {q : Robot ℝ} (h : Approached t n r q) :
    ‖t - q.position‖ = left^[n] ‖t - r.position‖ := by
  obtain ⟨hnonneg, hle⟩ := iterate_left_mem n (norm_nonneg (t - r.position))
  rw [h.position, norm_smul, Real.norm_of_nonneg (div_nonneg hnonneg (norm_nonneg _))]
  rcases eq_or_ne ‖t - r.position‖ 0 with hzero | hne
  · rw [hzero, mul_zero]
    rw [hzero] at hnonneg hle
    exact le_antisymm hnonneg hle
  · exact div_mul_cancel₀ _ hne

theorem Approached.zero (t : Vec ℝ) (r : Robot ℝ) : Approached t 0 r r := by
  refine ⟨rfl, rfl, ?_⟩
  rw [Function.iterate_zero_apply, norm_div_norm_smul]

/-- **One more tick.** -/
theorem Approached.move {q : Robot ℝ} (h : Approached t n r q) (hfree : Unpushed rs q) :
    Approached t (n + 1) r (move t.x t.y rs q) := by
  refine ⟨h.id, h.velocity, ?_⟩
  rw [sub_position_of_unpushed hfree, h.norm_eq, h.position, smul_smul,
    Function.iterate_succ_apply']
  rcases eq_or_ne (left^[n] ‖t - r.position‖) 0 with hzero | hne
  · rw [hzero, left_of_le (by norm_num), zero_div, zero_mul, zero_div]
  · rw [div_mul_div_cancel₀ hne]

/-- **Many ticks.** -/
theorem approached_of_unpushed (hr : rs[i]? = some r) (n : ℕ)
    (hfree : ∀ k < n, ∀ q, (ticks t k rs)[i]? = some q → Unpushed (ticks t k rs) q) :
    ∃ q, (ticks t n rs)[i]? = some q ∧ Approached t n r q := by
  induction n with
  | zero => exact ⟨r, hr, .zero t r⟩
  | succ n ih =>
    obtain ⟨q, hq, happroached⟩ := ih fun k hk => hfree k (hk.trans (Nat.lt_succ_self n))
    refine ⟨PotentialField.move t.x t.y (ticks t n rs) q, ?_, happroached.move
      (hfree n (Nat.lt_succ_self n) q hq)⟩
    rw [ticks_succ, List.getElem?_map, hq]
    rfl

/-- A robot within the stopping distance rests. -/
theorem move_of_arrived (hfree : Unpushed rs r) (h : ‖t - r.position‖ ≤ 5) :
    move t.x t.y rs r = r := by
  have hposition : (move t.x t.y rs r).position = r.position := by
    rw [← sub_right_inj (a := t), sub_position_of_unpushed hfree, left_of_le h, norm_div_norm_smul]
  exact congrArg (fun p => Robot.mk r.id p r.velocity) hposition

end PotentialField

open PotentialField

variable {rs : List (Robot ℝ)} {r : Robot ℝ} {t : Vec ℝ} {i : ℕ}

/-! ### The robots registered before the first tick -/

/-- All robots are in one place. -/
def AllAt (p : Vec ℝ) (rs : List (Robot ℝ)) : Prop := ∀ r ∈ rs, r.position = p

theorem AllAt.unpushed {p : Vec ℝ} (h : AllAt p rs) (hr : r ∈ rs) : Unpushed rs r := by
  intro o ho
  rw [h r hr]
  exact h o (List.mem_filter.mp ho).1

theorem AllAt.potential {p : Vec ℝ} (h : AllAt p rs) (t : Vec ℝ) :
    ∃ p', AllAt p' ((SwarmAction.potential t).apply rs) := by
  refine ⟨p + (0.8 : ℝ) • pull t p, ?_⟩
  intro q hq
  obtain ⟨r, hr, rfl⟩ := List.mem_map.mp hq
  rw [← h r hr, ← force_of_unpushed (h.unpushed hr), ← position_move_sub, add_sub_cancel]

theorem AllAt.ticks {p : Vec ℝ} (h : AllAt p rs) (t : Vec ℝ) (n : ℕ) :
    ∃ p', AllAt p' (PotentialField.ticks t n rs) := by
  induction n with
  | zero => exact ⟨p, h⟩
  | succ n ih =>
    obtain ⟨p', h'⟩ := ih
    rw [ticks_succ]
    exact h'.potential t

theorem allAt_registrations (k : ℕ) : AllAt 0 (swarm (List.replicate k .register)) := by
  rw [swarm_registrations]
  intro r hr
  obtain ⟨i, -, rfl⟩ := List.mem_map.mp hr
  rfl

theorem swarm_ticks (k n : ℕ) (t : Vec ℝ) :
    swarm (List.replicate k .register ++ List.replicate n (.potential t)) =
      ticks t n (swarm (List.replicate k .register)) := by
  induction n with
  | zero => rw [List.replicate_zero, List.append_nil]; rfl
  | succ n ih =>
    rw [List.replicate_succ', ← List.append_assoc, swarm_concat, ih, ticks_succ]
    rfl

/-! ### Arrival -/

/-- **When a robot that nobody pushes arrives.** For every swarm, every robot of it and every
target: if in none of the first `n` ticks another robot was within the separation distance of it and
in another place, then it is on the straight line between its start and the target; it is within
the stopping distance exactly if it started within `reach n`; it is not closer than `4.6` px unless
it started there; and once it is within the stopping distance, a tick in which nobody pushes it
leaves it as it is. -/
theorem unpushed_arrives_iff (n : ℕ) (hr : rs[i]? = some r)
    (hfree : ∀ k < n, ∀ q, (ticks t k rs)[i]? = some q → Unpushed (ticks t k rs) q) :
    ∃ q, (ticks t n rs)[i]? = some q ∧ q.id = r.id ∧
      (∃ c : ℝ, 0 ≤ c ∧ c ≤ 1 ∧ t - q.position = c • (t - r.position)) ∧
      (‖t - q.position‖ ≤ stoppingDist ↔ ‖t - r.position‖ ≤ reach n) ∧
      (4.6 < ‖t - r.position‖ → 4.6 < ‖t - q.position‖) ∧
      (‖t - q.position‖ ≤ stoppingDist → Unpushed (ticks t n rs) q →
        (ticks t (n + 1) rs)[i]? = some q) := by
  -- after `n` ticks without a push the distance is a function of the one at the start, iterated
  obtain ⟨q, hq, happroached⟩ := approached_of_unpushed hr n hfree
  have hnorm := happroached.norm_eq
  obtain ⟨hnonneg, hle⟩ := iterate_left_mem n (norm_nonneg (t - r.position))
  refine ⟨q, hq, happroached.id, ⟨_, div_nonneg hnonneg (norm_nonneg _),
    div_le_one_of_le₀ hle (norm_nonneg _), happroached.position⟩, ?_, ?_, ?_⟩
  · rw [hnorm]
    exact iterate_left_le_iff n _
  · intro hfar
    rw [hnorm]
    exact lt_iterate_left n hfar
  · intro harrived hlast
    rw [ticks_succ, List.getElem?_map, hq, Option.map_some, move_of_arrived hlast harrived]

/-- Two robots in one place, `60` ticks. -/
theorem unpushed_arrives_iff_two :
    let rs : List (Robot ℝ) := [newRobot 0, newRobot 1]
    let t : Vec ℝ := ⟨100, 0⟩
    ∃ q, (ticks t 60 rs)[1]? = some q ∧ q.id = 1 ∧
      (∃ c : ℝ, 0 ≤ c ∧ c ≤ 1 ∧ t - q.position = c • (t - Vec.zero)) ∧
      (‖t - q.position‖ ≤ stoppingDist ↔ ‖t - Vec.zero‖ ≤ reach 60) ∧
      (4.6 < ‖t - Vec.zero‖ → 4.6 < ‖t - q.position‖) ∧
      (‖t - q.position‖ ≤ stoppingDist → Unpushed (ticks t 60 rs) q →
        (ticks t 61 rs)[1]? = some q) := by
  have hall : AllAt 0 [newRobot 0, newRobot 1] := allAt_registrations 2
  refine unpushed_arrives_iff 60 (r := newRobot 1) rfl ?_
  intro k _ q hq
  obtain ⟨p, hp⟩ := hall.ticks ⟨100, 0⟩ k
  exact hp.unpushed (List.mem_of_getElem? hq)

/-- **When the robots registered before the first tick arrive.** For every number of robots, every
target and every number of Potential Field ticks after their registrations: they are all in one
place on the straight line from the origin to the target, and within the stopping distance of it
exactly if the target is within `reach n` of the origin. -/
theorem registered_swarm_arrives_iff (k n : ℕ) (t : Vec ℝ) :
    ∃ c : ℝ, 0 ≤ c ∧ c ≤ 1 ∧
      ∀ r ∈ swarm (List.replicate k .register ++ List.replicate n (.potential t)),
        t - r.position = c • t ∧
        (‖t - r.position‖ ≤ stoppingDist ↔ ‖t‖ ≤ reach n) := by
  obtain ⟨hnonneg, hle⟩ := iterate_left_mem n (norm_nonneg t)
  refine ⟨left^[n] ‖t‖ / ‖t‖, div_nonneg hnonneg (norm_nonneg t),
    div_le_one_of_le₀ hle (norm_nonneg t), ?_⟩
  intro r hr
  rw [swarm_ticks] at hr
  obtain ⟨i, hi⟩ := List.mem_iff_getElem?.mp hr
  -- the robot that it was
  have hlen : i < (swarm (K := ℝ) (List.replicate k .register)).length := by
    rw [← length_ticks t n]
    exact (List.getElem?_eq_some_iff.mp hi).1
  obtain ⟨r₀, hr₀⟩ : ∃ r₀, (swarm (K := ℝ) (List.replicate k .register))[i]? = some r₀ :=
    ⟨_, List.getElem?_eq_getElem hlen⟩
  have hstart : r₀.position = 0 := allAt_registrations k r₀ (List.mem_of_getElem? hr₀)
  -- robots in one place do not push each other, and stay in one place
  obtain ⟨q, hq, happroached⟩ := approached_of_unpushed (t := t) hr₀ n fun m _ q hq => by
    obtain ⟨p, hp⟩ := (allAt_registrations k).ticks t m
    exact hp.unpushed (List.mem_of_getElem? hq)
  obtain rfl := Option.some.inj (hi.symm.trans hq)
  have hposition := happroached.position
  have hnorm := happroached.norm_eq
  rw [hstart, sub_zero] at hposition hnorm
  refine ⟨hposition, ?_⟩
  rw [hnorm]
  exact iterate_left_le_iff n _

end SwarmBase
