import Mathlib.Algebra.Order.Floor.Ring
import SwarmBase.Ui.Seek

/-!
# The whole way of a lone robot

`directSeek` has no stopping distance. Its robot moves on the straight line through its start and
the target, `5` px in every tick, and turns round whenever it has passed the target.
`DirectSeek.swing` is where it is on that line: the distance to the target, negative on the far
side.

* `seek_trajectory` — where the robot is after any number of ticks. Only from a multiple of `5` px
  does it meet the target; then the list is replaced by the robot, and the tick after that throws.
  From any other distance it swings between two points for ever.
-/

namespace SwarmBase

open Framework

namespace DirectSeek

variable {d : ℝ} {n k : ℕ}

/-- How many ticks a robot at distance `d` takes before it would pass the target. -/
noncomputable def ticksTo (d : ℝ) : ℕ := ⌊d / maxSpeed⌋₊

/-- How far a robot that started at distance `d` has to go after `n` ticks. -/
noncomputable def swing (d : ℝ) (n : ℕ) : ℝ :=
  if n ≤ ticksTo d then d - maxSpeed * n
  else if Even (n - ticksTo d) then d - maxSpeed * ticksTo d
  else d - maxSpeed * ticksTo d - maxSpeed

theorem swing_eq (d : ℝ) (n : ℕ) : swing d n =
    if n ≤ ticksTo d then d - 5 * n
    else if Even (n - ticksTo d) then d - 5 * ticksTo d else d - 5 * ticksTo d - 5 := rfl

theorem ticksTo_spec (h : 0 ≤ d) : 5 * (ticksTo d : ℝ) ≤ d ∧ d < 5 * (ticksTo d : ℝ) + 5 := by
  have hnonneg : 0 ≤ d / 5 := by linarith
  have hle : (ticksTo d : ℝ) ≤ d / 5 := Nat.floor_le hnonneg
  have hlt : d / 5 < (ticksTo d : ℝ) + 1 := Nat.lt_floor_add_one _
  exact ⟨by linarith, by linarith⟩

theorem swing_zero (d : ℝ) : swing d 0 = d := by
  rw [swing_eq, if_pos (Nat.zero_le _), Nat.cast_zero, mul_zero, sub_zero]

/-- The robot has not met the target if it started at no multiple of `5` px that is passed. -/
theorem swing_ne_zero (h : 0 ≤ d) (hd : ∀ k ≤ n, d ≠ 5 * (k : ℝ)) : swing d n ≠ 0 := by
  obtain ⟨-, hlt⟩ := ticksTo_spec h
  rw [swing_eq]
  split_ifs with hbefore heven
  · exact sub_ne_zero.mpr (hd n le_rfl)
  · exact sub_ne_zero.mpr (hd _ (not_le.mp hbefore).le)
  · linarith

/-- One tick on: straight ahead, or back. -/
theorem swing_succ (h : 0 ≤ d) (hne : swing d n ≠ 0) :
    swing d (n + 1) = (1 - 5 / |swing d n|) * swing d n := by
  obtain ⟨hle, hlt⟩ := ticksTo_spec h
  have hahead : ∀ s : ℝ, 0 < s → (1 - 5 / |s|) * s = s - 5 := by
    intro s hs
    rw [abs_of_pos hs, sub_mul, one_mul, div_mul_cancel₀ _ hs.ne']
  -- on the far side the distance is the other way round
  have hback : ∀ s : ℝ, s < 0 → (1 - 5 / |s|) * s = s + 5 := by
    intro s hs
    rw [abs_of_neg hs, div_neg, sub_neg_eq_add, add_mul, one_mul, div_mul_cancel₀ _ hs.ne]
  rcases lt_trichotomy n (ticksTo d) with hbefore | hat | hafter
  · have hcast : (n : ℝ) + 1 ≤ ticksTo d := by exact_mod_cast hbefore
    have hnow : swing d n = d - 5 * n := by rw [swing_eq, if_pos hbefore.le]
    rw [hnow, hahead _ (by linarith), swing_eq, if_pos (Nat.succ_le_of_lt hbefore), Nat.cast_succ]
    ring
  · -- the next tick passes the target
    have hnow : swing d n = d - 5 * ticksTo d := by rw [swing_eq, if_pos hat.le, hat]
    rw [hnow] at hne ⊢
    have hpos : 0 < d - 5 * (ticksTo d : ℝ) := lt_of_le_of_ne (by linarith) hne.symm
    have hodd : ¬ Even (n + 1 - ticksTo d) := by
      rw [hat, Nat.add_sub_cancel_left]
      exact Nat.not_even_one
    rw [hahead _ hpos, swing_eq, if_neg (by omega), if_neg hodd]
  · -- it is on the near side after an even number of ticks from there, and then on the far side
    have hnext : Even (n + 1 - ticksTo d) ↔ ¬ Even (n - ticksTo d) := by
      rw [Nat.sub_add_comm hafter.le]
      exact Nat.even_add_one
    rw [swing_eq, if_neg (by omega)]
    by_cases heven : Even (n - ticksTo d)
    · have hnow : swing d n = d - 5 * ticksTo d := by
        rw [swing_eq, if_neg (by omega), if_pos heven]
      rw [hnow] at hne ⊢
      have hpos : 0 < d - 5 * (ticksTo d : ℝ) := lt_of_le_of_ne (by linarith) hne.symm
      rw [hahead _ hpos, if_neg (mt hnext.mp (not_not.mpr heven))]
    · have hnow : swing d n = d - 5 * ticksTo d - 5 := by
        rw [swing_eq, if_neg (by omega), if_neg heven]
      rw [hnow, hback _ (by linarith), if_pos (hnext.mpr heven), sub_add_cancel]

end DirectSeek

open DirectSeek

variable {t : Vec ℝ} {r : Robot ℝ} {n k : ℕ}

/-! ### The `robots` state -/

theorem seekTicks_succ' (t : Vec ℝ) (n : ℕ) (s : RobotsState ℝ) :
    seekTicks t (n + 1) s = (seekTicks t n s).bind (directSeek t.x t.y) :=
  Function.iterate_succ_apply' _ n _

/-- Where the robot is that started at `r`, after `n` ticks. -/
structure Swung (t : Vec ℝ) (n : ℕ) (r q : Robot ℝ) : Prop where
  id : q.id = r.id
  position : t - q.position =
    (swing ‖t - r.position‖ n / ‖t - r.position‖) • (t - r.position)

theorem Swung.zero (t : Vec ℝ) (r : Robot ℝ) : Swung t 0 r r := by
  refine ⟨rfl, ?_⟩
  rw [swing_zero, norm_div_norm_smul]

theorem Swung.norm_eq {q : Robot ℝ} (h : Swung t n r q) (hne : ‖t - r.position‖ ≠ 0) :
    ‖t - q.position‖ = |swing ‖t - r.position‖ n| := by
  rw [h.position, norm_smul, norm_div, norm_norm, div_mul_cancel₀ _ hne, Real.norm_eq_abs]

/-- **One tick** of a robot that is not at the target. -/
theorem Swung.move {q : Robot ℝ} (h : Swung t n r q) (hne : ‖t - r.position‖ ≠ 0)
    (hswing : swing ‖t - r.position‖ n ≠ 0) :
    directSeek t.x t.y (.list [q]) = some (.list [DirectSeek.move t.x t.y q]) ∧
      Swung t (n + 1) r (DirectSeek.move t.x t.y q) := by
  have haway : q.position ≠ t := by
    intro heq
    have hnorm := h.norm_eq hne
    rw [heq, sub_self, norm_zero] at hnorm
    exact hswing (abs_eq_zero.mp hnorm.symm)
  refine ⟨by rw [directSeek_singleton, if_neg haway], h.id, ?_⟩
  rw [sub_position_move haway, h.norm_eq hne, h.position, smul_smul,
    swing_succ (norm_nonneg _) hswing, mul_div_assoc]

/-- **Many ticks.** -/
theorem seekTicks_swung (hd : ∀ k < n, ‖t - r.position‖ ≠ 5 * (k : ℝ)) :
    ∃ q, seekTicks t n (.list [r]) = some (.list [q]) ∧ Swung t n r q := by
  induction n with
  | zero => exact ⟨r, rfl, .zero t r⟩
  | succ n ih =>
    obtain ⟨q, hq, hswung⟩ := ih fun k hk => hd k (hk.trans (Nat.lt_succ_self n))
    have hne : ‖t - r.position‖ ≠ 0 := by
      have hzero := hd 0 n.succ_pos
      rwa [Nat.cast_zero, mul_zero] at hzero
    have hswing : swing ‖t - r.position‖ n ≠ 0 :=
      swing_ne_zero (norm_nonneg _) fun k hk => hd k (Nat.lt_succ_of_le hk)
    obtain ⟨htick, hnext⟩ := hswung.move hne hswing
    refine ⟨_, ?_, hnext⟩
    rw [seekTicks_succ', hq]
    exact htick

/-- A robot that meets the target replaces the list, which the next tick cannot handle. -/
theorem seekTicks_met (hd : ‖t - r.position‖ = 5 * (k : ℝ)) :
    (∃ q, seekTicks t (k + 1) (.list [r]) = some (.robot q) ∧ q.id = r.id ∧ q.position = t) ∧
      ∀ n, k + 1 < n → seekTicks t n (.list [r]) = none := by
  -- a multiple of `5` is no smaller multiple of `5`
  have hbefore : ∀ j < k, ‖t - r.position‖ ≠ 5 * (j : ℝ) := by
    intro j hj heq
    have hcast : (j : ℝ) < k := Nat.cast_lt.mpr hj
    linarith
  obtain ⟨q, hq, hswung⟩ := seekTicks_swung hbefore
  have hat : q.position = t := by
    have hticks : ticksTo ‖t - r.position‖ = k := by
      unfold ticksTo
      rw [hd]
      show ⌊5 * (k : ℝ) / 5⌋₊ = k
      rw [mul_div_cancel_left₀ _ (by norm_num), Nat.floor_natCast]
    have hswing : swing ‖t - r.position‖ k = 0 := by
      rw [swing_eq, if_pos hticks.ge, hd, sub_self]
    have hposition := hswung.position
    rw [hswing, zero_div, zero_smul] at hposition
    exact (sub_eq_zero.mp hposition).symm
  have hlast : seekTicks t (k + 1) (.list [r]) = some (.robot q) := by
    rw [seekTicks_succ', hq, Option.bind_some, directSeek_singleton, if_pos hat]
  refine ⟨⟨q, hlast, hswung.id, hat⟩, ?_⟩
  intro n hn
  obtain ⟨j, rfl⟩ := Nat.exists_eq_add_of_lt hn
  -- once it has thrown there is nothing for a later updater
  induction j with
  | zero =>
    rw [Nat.add_zero, seekTicks_succ', hlast]
    rfl
  | succ j ih =>
    rw [← Nat.add_assoc, seekTicks_succ', ih (by omega)]
    rfl

/-- **The whole way of a lone robot.** For every start, every target and every number of ticks of
`directSeek`: as long as the robot has not met the target, it is in the list, on the straight line
through its start and the target, at `swing` of its first distance. It meets the target only from a
multiple of `5` px, after a tick for every `5` px; one tick later it has replaced the list, and
every tick from then on throws. -/
theorem seek_trajectory (t : Vec ℝ) (r : Robot ℝ) :
    (∀ n, (∀ k : ℕ, k < n → (t.sub r.position).norm ≠ maxSpeed * k) →
      ∃ q, seekTicks t n (.list [r]) = some (.list [q]) ∧ q.id = r.id ∧
        t - q.position = (swing ‖t - r.position‖ n / ‖t - r.position‖) • (t - r.position)) ∧
    (∀ k : ℕ, (t.sub r.position).norm = maxSpeed * k →
      (∃ q, seekTicks t (k + 1) (.list [r]) = some (.robot q) ∧ q.id = r.id ∧ q.position = t) ∧
      ∀ n, k + 1 < n → seekTicks t n (.list [r]) = none) := by
  have hdist : (t.sub r.position).norm = ‖t - r.position‖ := Vec.norm_eq _
  rw [hdist]
  refine ⟨?_, fun k hk => seekTicks_met hk⟩
  intro n hn
  obtain ⟨q, hq, hswung⟩ := seekTicks_swung (n := n) hn
  exact ⟨q, hq, hswung.id, hswung.position⟩

/-- A robot that starts `10` px away. -/
theorem seek_trajectory_ten :
    ∃ q : Robot ℝ, seekTicks ⟨10, 0⟩ 3 (.list [newRobot 0]) = some (.robot q) ∧ q.id = 0 ∧
      q.position = ⟨10, 0⟩ := by
  have hdist : ((⟨10, 0⟩ : Vec ℝ).sub (newRobot (K := ℝ) 0).position).norm =
      maxSpeed * ((2 : ℕ) : ℝ) := by
    show √((10 - 0) ^ 2 + (0 - 0) ^ 2) = 5 * ((2 : ℕ) : ℝ)
    rw [sub_zero, sub_zero, zero_pow two_ne_zero, add_zero, Real.sqrt_sq (by norm_num)]
    norm_num
  exact ((seek_trajectory ⟨10, 0⟩ (newRobot 0)).2 2 hdist).1

end SwarmBase
