import SwarmBase.Ui.Plane

/-!
# A lone robot on its way

`directSeek` moves its robot by `5` px towards the target, whatever the distance. So the distance
goes from `d` to `|d - 5|` (`DirectSeek.dist_move`): it grows once it is below `2.5`. If it gets to
zero, the next tick returns the robot in place of the list.

* `approaches_iff` — the first `n` ticks all bring the robot closer exactly if they end before the
  robot is within `2.5` px, or if it stops at that distance on either side of the target in turn.
-/

namespace SwarmBase

/-- The `robots` state after `n` ticks of `directSeek`. -/
def seekTicks {K : Type} [JsArith K] (t : Vec K) (n : ℕ) (s : RobotsState K) :
    Option (RobotsState K) :=
  (fun s => s.bind (directSeek t.x t.y))^[n] (some s)

/-- A tick of a lone robot does not take it further away from the target, and leaves it there if it
is there. -/
def Approach (t : Vec ℝ) (s s' : Option (RobotsState ℝ)) : Prop :=
  ∃ a b, s = some (.list [a]) ∧ s' = some (.list [b]) ∧ b.id = a.id ∧
    DirectSeek.dist t.x t.y b ≤ DirectSeek.dist t.x t.y a ∧ (a.position = t → b.position = t)

/-- So do the first `n` ticks. -/
def Approaches (t : Vec ℝ) (r : Robot ℝ) (n : ℕ) : Prop :=
  ∀ i < n, Approach t (seekTicks t i (.list [r])) (seekTicks t (i + 1) (.list [r]))

variable {t : Vec ℝ} {r : Robot ℝ} {n : ℕ} {d : ℝ}

/-! ### One tick -/

theorem DirectSeek.dist_eq (t : Vec ℝ) (r : Robot ℝ) : dist t.x t.y r = ‖t - r.position‖ :=
  Vec.hypot_sub t r.position

theorem directSeek_singleton (t : Vec ℝ) (r : Robot ℝ) :
    directSeek t.x t.y (.list [r]) =
      if r.position = t then some (.robot r) else some (.list [DirectSeek.move t.x t.y r]) := by
  refine if_congr ?_ rfl rfl
  rw [beq_iff_eq, DirectSeek.dist_eq, norm_eq_zero, sub_eq_zero]
  exact eq_comm

/-- What is left of the way after a tick. -/
theorem DirectSeek.sub_position_move (h : r.position ≠ t) :
    t - (move t.x t.y r).position = (1 - 5 / ‖t - r.position‖) • (t - r.position) := by
  have hdist : ‖t - r.position‖ ≠ 0 := norm_ne_zero_iff.mpr (sub_ne_zero.mpr h.symm)
  refine Vec.ext ?_ ?_
  · show t.x - (r.position.x + (t.x - r.position.x) / dist t.x t.y r * 5) = _
    rw [dist_eq, Vec.smul_x, Vec.sub_x]
    ring
  · show t.y - (r.position.y + (t.y - r.position.y) / dist t.x t.y r * 5) = _
    rw [dist_eq, Vec.smul_y, Vec.sub_y]
    ring

theorem DirectSeek.dist_move (h : r.position ≠ t) :
    dist t.x t.y (move t.x t.y r) = |dist t.x t.y r - 5| := by
  have hpos : 0 < ‖t - r.position‖ := norm_pos_iff.mpr (sub_ne_zero.mpr h.symm)
  rw [dist_eq, dist_eq, sub_position_move h, norm_smul, Real.norm_eq_abs]
  calc |1 - 5 / ‖t - r.position‖| * ‖t - r.position‖
      = |(1 - 5 / ‖t - r.position‖) * ‖t - r.position‖| := by rw [abs_mul, abs_norm]
    _ = |‖t - r.position‖ - 5| := by rw [sub_mul, one_mul, div_mul_cancel₀ _ hpos.ne']

theorem abs_sub_five_le_iff : |d - 5| ≤ d ↔ 2.5 ≤ d := by
  rw [abs_le]
  refine ⟨?_, ?_⟩
  · rintro ⟨h, -⟩
    linarith
  · intro h
    exact ⟨by linarith, by linarith⟩

theorem DirectSeek.ne_of_le_dist (h : 2.5 ≤ dist t.x t.y r) : r.position ≠ t := by
  rintro rfl
  rw [dist_eq, sub_self, norm_zero] at h
  norm_num at h

/-- A tick brings the robot closer from `2.5` px on. -/
theorem approach_iff (t : Vec ℝ) (r : Robot ℝ) :
    Approach t (some (.list [r])) (directSeek t.x t.y (.list [r])) ↔
      2.5 ≤ DirectSeek.dist t.x t.y r := by
  rw [directSeek_singleton]
  refine ⟨?_, ?_⟩
  · rintro ⟨a, b, ha, hb, -, hdist, -⟩
    obtain rfl := List.head_eq_of_cons_eq (RobotsState.list.inj (Option.some.inj ha))
    split_ifs at hb with hat
    · cases hb
    · obtain rfl := List.head_eq_of_cons_eq (RobotsState.list.inj (Option.some.inj hb))
      rwa [DirectSeek.dist_move hat, abs_sub_five_le_iff] at hdist
  · intro h
    have hat : r.position ≠ t := DirectSeek.ne_of_le_dist h
    rw [if_neg hat]
    refine ⟨r, DirectSeek.move t.x t.y r, rfl, rfl, rfl, ?_, fun heq => absurd heq hat⟩
    rwa [DirectSeek.dist_move hat, abs_sub_five_le_iff]

/-! ### Many ticks -/

theorem seekTicks_succ {s s' : RobotsState ℝ} (h : directSeek t.x t.y s = some s') (n : ℕ) :
    seekTicks t (n + 1) s = seekTicks t n s' := by
  unfold seekTicks
  rw [Function.iterate_succ_apply, Option.bind_some, h]

/-- The first tick, and those after it. -/
theorem approaches_succ_iff :
    Approaches t r (n + 1) ↔
      2.5 ≤ DirectSeek.dist t.x t.y r ∧ Approaches t (DirectSeek.move t.x t.y r) n := by
  unfold Approaches
  rw [Nat.forall_lt_succ_left]
  have hfirst : seekTicks t 1 (.list [r]) = directSeek t.x t.y (.list [r]) := rfl
  have hstart : seekTicks t 0 (.list [r]) = some (.list [r]) := rfl
  rw [zero_add, hfirst, hstart, approach_iff]
  refine and_congr_right fun h => ?_
  have hat : r.position ≠ t := DirectSeek.ne_of_le_dist h
  have hmove : directSeek t.x t.y (.list [r]) = some (.list [DirectSeek.move t.x t.y r]) := by
    rw [directSeek_singleton, if_neg hat]
  simp only [seekTicks_succ hmove]

/-- How far off a robot has to be for `n` ticks to bring it closer. -/
def LastsFor (n : ℕ) (d : ℝ) : Prop :=
  n = 0 ∨ DirectSeek.maxSpeed * ((n : ℝ) - 1) + 2.5 ≤ d ∨
    ∃ k : ℕ, d = DirectSeek.maxSpeed * k + 2.5

theorem lastsFor_iff :
    LastsFor n d ↔ n = 0 ∨ 5 * ((n : ℝ) - 1) + 2.5 ≤ d ∨ ∃ k : ℕ, d = 5 * k + 2.5 := Iff.rfl

/-- A tick from `5` px on takes `5` px off. -/
theorem lastsFor_succ_of_ge (h : 5 ≤ d) : LastsFor (n + 1) d ↔ LastsFor n (d - 5) := by
  rw [lastsFor_iff, lastsFor_iff]
  rw [or_iff_right n.succ_ne_zero, Nat.cast_succ, add_sub_cancel_right]
  refine ⟨?_, ?_⟩
  · rintro (hlong | ⟨k, hk⟩)
    · exact Or.inr (Or.inl (by linarith))
    · cases k with
      | zero =>
        rw [Nat.cast_zero] at hk
        linarith
      | succ k =>
        rw [Nat.cast_succ] at hk
        exact Or.inr (Or.inr ⟨k, by linarith⟩)
  · rintro (rfl | hlong | ⟨k, hk⟩)
    · rw [Nat.cast_zero]
      exact Or.inl (by linarith)
    · exact Or.inl (by linarith)
    · refine Or.inr ⟨k + 1, ?_⟩
      rw [Nat.cast_succ]
      linarith

/-- A tick from below passes the target. -/
theorem lastsFor_succ_of_lt (hlow : 2.5 ≤ d) (h : d < 5) :
    LastsFor (n + 1) d ↔ LastsFor n (5 - d) := by
  rw [lastsFor_iff, lastsFor_iff]
  rw [or_iff_right n.succ_ne_zero, Nat.cast_succ, add_sub_cancel_right]
  rcases n.eq_zero_or_pos with rfl | hpos
  · rw [Nat.cast_zero]
    exact iff_of_true (Or.inl (by linarith)) (Or.inl rfl)
  have hn : (1 : ℝ) ≤ n := Nat.one_le_cast.mpr hpos
  -- there is a next tick, which has to start at `2.5` px as well
  have hhalf : d = 2.5 → ∃ k : ℕ, d = 5 * k + 2.5 := by
    rintro rfl
    exact ⟨0, by norm_num⟩
  refine ⟨?_, ?_⟩
  · rintro (hlong | ⟨k, hk⟩)
    · linarith
    · have hk0 : (k : ℝ) < 1 := by linarith
      obtain rfl : k = 0 := Nat.cast_lt_one.mp hk0
      rw [Nat.cast_zero] at hk
      exact Or.inr (Or.inr ⟨0, by rw [Nat.cast_zero]; linarith⟩)
  · rintro (rfl | hlong | ⟨k, hk⟩)
    · exact absurd hpos (lt_irrefl 0)
    · exact Or.inr (hhalf (by linarith))
    · have hk0 : (0 : ℝ) ≤ k := k.cast_nonneg
      exact Or.inr (hhalf (by linarith))

/-- It lasts for one more tick if this one starts far enough off and it lasts from there. -/
theorem lastsFor_succ_iff (hd : 0 ≤ d) : LastsFor (n + 1) d ↔ 2.5 ≤ d ∧ LastsFor n |d - 5| := by
  rcases le_or_gt 5 d with hge | hlt
  · rw [abs_of_nonneg (sub_nonneg.mpr hge), lastsFor_succ_of_ge hge, iff_and_self]
    intro
    linarith
  · rw [abs_of_neg (sub_neg.mpr hlt), neg_sub]
    by_cases hlow : 2.5 ≤ d
    · rw [lastsFor_succ_of_lt hlow hlt, and_iff_right hlow]
    · refine iff_of_false ?_ fun h => hlow h.1
      rw [lastsFor_iff, or_iff_right n.succ_ne_zero, Nat.cast_succ, add_sub_cancel_right]
      have hn : (0 : ℝ) ≤ n := n.cast_nonneg
      rintro (hlong | ⟨k, rfl⟩)
      · linarith
      · have hk : (0 : ℝ) ≤ k := k.cast_nonneg
        linarith

theorem approaches_iff_lastsFor (t : Vec ℝ) (r : Robot ℝ) (n : ℕ) :
    Approaches t r n ↔ LastsFor n (DirectSeek.dist t.x t.y r) := by
  induction n generalizing r with
  | zero => exact iff_of_true nofun (Or.inl rfl)
  | succ n ih =>
    have hnonneg : 0 ≤ DirectSeek.dist t.x t.y r := by
      rw [DirectSeek.dist_eq]
      exact norm_nonneg _
    rw [approaches_succ_iff, lastsFor_succ_iff hnonneg]
    refine and_congr_right fun h => ?_
    rw [ih, DirectSeek.dist_move (DirectSeek.ne_of_le_dist h)]

/-- **When a lone robot approaches its target monotonically.** For every start position and every
target: the first `n` ticks of `directSeek` take the robot no further away, do not move it off the
target and leave it in the list, exactly if it is so far off that the last of them starts at
`2.5` px or more, or if its distance is `2.5` px more than a multiple of `5` px. In the latter
case, and in no other, any number of ticks does. -/
theorem approaches_iff (t : Vec ℝ) (r : Robot ℝ) :
    (∀ n, Approaches t r n ↔
      n = 0 ∨ 5 * ((n : ℝ) - 1) + 2.5 ≤ (t.sub r.position).norm ∨
        ∃ k : ℕ, (t.sub r.position).norm = 5 * k + 2.5) ∧
    ((∀ n, Approaches t r n) ↔ ∃ k : ℕ, (t.sub r.position).norm = 5 * k + 2.5) := by
  refine ⟨approaches_iff_lastsFor t r, ?_⟩
  refine ⟨?_, ?_⟩
  · intro h
    -- more ticks than the way is long
    obtain ⟨n, hn⟩ := exists_nat_gt (t.sub r.position).norm
    have hn0 : (0 : ℝ) ≤ n := n.cast_nonneg
    rcases (approaches_iff_lastsFor t r (n + 1)).mp (h (n + 1)) with hzero | hlong | hmultiple
    · exact absurd hzero n.succ_ne_zero
    · have hlong' : 5 * ((n + 1 : ℕ) - 1 : ℝ) + 2.5 ≤ (t.sub r.position).norm := hlong
      rw [Nat.cast_succ, add_sub_cancel_right] at hlong'
      linarith
    · exact hmultiple
  · intro h n
    exact (approaches_iff_lastsFor t r n).mpr (Or.inr (Or.inr h))

/-- A target `1` px away is passed. -/
theorem seek_passes_target : ¬ ∀ (t : Vec ℝ) (r : Robot ℝ) (n : ℕ), Approaches t r n := by
  intro h
  have hone := h ⟨1, 0⟩ (newRobot 0) 1
  have hdist : DirectSeek.dist 1 0 (newRobot (K := ℝ) 0) = 1 := by
    show √((1 - 0) ^ 2 + (0 - 0) ^ 2) = 1
    norm_num
  rw [approaches_succ_iff, hdist] at hone
  norm_num at hone

end SwarmBase
