import SwarmBase.Ui.Coincident
import SwarmBase.Ui.PotentialField

/-!
# How far apart a Potential Field keeps two robots

The pull of the target takes two robots towards each other, the pushes away. The pull of one point
never differs from that of another by more than a tenth of their distance, but for a jump of half a
pixel at the stopping distance (`PotentialField.norm_pull_sub_pull_le`), so it can only take `8`
percent of the distance in a tick, and a little. The pushes add `480` divided by the square of the
distance. Whatever the distance was, what is left after a tick is more than `13.5` px.

* `pair_kept_apart` — for two robots that have no other neighbours, over whole runs in which the
  target may change from tick to tick.
-/

namespace SwarmBase

open Framework

namespace PotentialField

variable {rs : List (Robot ℝ)} {r o : Robot ℝ} {t p q : Vec ℝ}

/-! ### The pulls on two robots -/

/-- The pull is a vector cut to the speed limit, but for the stopping distance. -/
theorem pull_eq_cut (h : 5 < ‖t - p‖) : pull t p = cut 5 ((0.1 : ℝ) • (t - p)) := by
  have hpos : 0 < ‖t - p‖ := by linarith
  have hnorm : ‖(0.1 : ℝ) • (t - p)‖ = ‖t - p‖ / 10 := by
    rw [norm_smul, Real.norm_of_nonneg (by norm_num)]
    norm_num [div_eq_inv_mul]
  rw [pull_eq, if_pos h]
  rcases le_total ‖(0.1 : ℝ) • (t - p)‖ 5 with hle | hge
  · -- below the speed limit: a tenth of the way
    rw [cut_of_le hle]
    rw [hnorm] at hle
    rw [min_eq_left hle]
    congr 1
    field_simp
    norm_num
  · -- at the speed limit: its direction only
    rw [cut_of_ge (by norm_num) hge, smul_smul]
    rw [hnorm] at hge ⊢
    rw [min_eq_right hge]
    congr 1
    field_simp
    norm_num

/-- The pull on one robot, and on another that is within the stopping distance. -/
theorem norm_pull_le_of_arrived (hq : ‖t - q‖ ≤ 5) (p : Vec ℝ) :
    ‖pull t p‖ ≤ ‖p - q‖ / 10 + 0.5 := by
  rcases le_or_gt ‖t - p‖ 5 with hp | hp
  · rw [pull_eq, if_neg (not_lt.mpr hp), norm_zero]
    positivity
  · have htriangle : ‖t - p‖ ≤ ‖t - q‖ + ‖p - q‖ := by
      rw [norm_sub_rev p q]
      exact norm_sub_le_norm_sub_add_norm_sub t q p
    calc ‖pull t p‖ = ‖cut 5 ((0.1 : ℝ) • (t - p))‖ := by rw [pull_eq_cut hp]
      _ = ‖cut 5 ((0.1 : ℝ) • (t - p)) - cut 5 0‖ := by rw [cut_zero (by norm_num), sub_zero]
      _ ≤ ‖(0.1 : ℝ) • (t - p) - 0‖ := norm_cut_sub_cut_le (by norm_num) _ _
      _ = ‖t - p‖ / 10 := by
          rw [sub_zero, norm_smul, Real.norm_of_nonneg (by norm_num)]
          norm_num [div_eq_inv_mul]
      _ ≤ ‖p - q‖ / 10 + 0.5 := by linarith

theorem norm_pull_sub_pull_le (t p q : Vec ℝ) :
    ‖pull t p - pull t q‖ ≤ ‖p - q‖ / 10 + 0.5 := by
  -- if one of the two rests, the other is at most `5` px further from the target than from it
  rcases le_or_gt ‖t - q‖ 5 with hq | hq
  · have hrest : pull t q = 0 := by rw [pull_eq, if_neg (not_lt.mpr hq)]
    rw [hrest, sub_zero]
    exact norm_pull_le_of_arrived hq p
  rcases le_or_gt ‖t - p‖ 5 with hp | hp
  · have hrest : pull t p = 0 := by rw [pull_eq, if_neg (not_lt.mpr hp)]
    rw [hrest, zero_sub, norm_neg, norm_sub_rev p q]
    exact norm_pull_le_of_arrived hp q
  · -- cutting two vectors brings them no further apart
    have hdiff : (0.1 : ℝ) • (t - p) - (0.1 : ℝ) • (t - q) = (0.1 : ℝ) • (q - p) := by
      rw [← smul_sub, sub_sub_sub_cancel_left]
    calc ‖pull t p - pull t q‖
        = ‖cut 5 ((0.1 : ℝ) • (t - p)) - cut 5 ((0.1 : ℝ) • (t - q))‖ := by
          rw [pull_eq_cut hp, pull_eq_cut hq]
      _ ≤ ‖(0.1 : ℝ) • (t - p) - (0.1 : ℝ) • (t - q)‖ := norm_cut_sub_cut_le (by norm_num) _ _
      _ = ‖p - q‖ / 10 := by
          rw [hdiff, norm_smul, Real.norm_of_nonneg (by norm_num), norm_sub_rev]
          norm_num [div_eq_inv_mul]
      _ ≤ ‖p - q‖ / 10 + 0.5 := by linarith

/-! ### Two robots -/

/-- Two robots of a list have no other neighbours than each other. -/
structure Pair (rs : List (Robot ℝ)) (r o : Robot ℝ) : Prop where
  id_ne : o.id ≠ r.id
  near_fst : near sepDist rs r = near sepDist [o] r
  near_snd : near sepDist rs o = near sepDist [r] o

theorem Pair.symm (h : Pair rs r o) : Pair rs o r := ⟨h.id_ne.symm, h.near_snd, h.near_fst⟩

theorem fRep_of_pair (h : Pair rs r o) : fRep rs r = push r.position o.position := by
  have hnear : near 20 rs r = near 20 [o] r := h.near_fst
  have hothers : others Robot.id r.id [o] = [o] := List.filter_cons_of_pos (by simp [h.id_ne])
  calc fRep rs r = ((near 20 rs r).map fun o => push r.position o.position).sum := fRep_eq rs r
    _ = ((near 20 [o] r).map fun o => push r.position o.position).sum := by rw [hnear]
    _ = fRep [o] r := (fRep_eq [o] r).symm
    _ = push r.position o.position := by
        rw [fRep_eq_others, hothers, List.map_singleton, List.sum_singleton]

/-- What a tick makes of the way from one to the other. -/
theorem position_move_sub_of_pair (h : Pair rs r o) (t : Vec ℝ) :
    (move t.x t.y rs r).position - (move t.x t.y rs o).position =
      (r.position - o.position + (1.6 : ℝ) • push r.position o.position) +
        (0.8 : ℝ) • (pull t r.position - pull t o.position) := by
  have hopposite : push o.position r.position = -push r.position o.position := push_swap _ _
  rw [position_move, position_move, fRep_of_pair h, fRep_of_pair h.symm, fAtt_eq, fAtt_eq,
    hopposite]
  module

/-- The pushes of two robots lead straight away from each other. -/
theorem norm_add_push (h : p ≠ q) : ‖p - q + (1.6 : ℝ) • push p q‖ =
    ‖p - q‖ + if ‖p - q‖ < 20 then 480 / ‖p - q‖ ^ 2 else 0 := by
  have hpos : 0 < ‖p - q‖ := norm_pos_iff.mpr (sub_ne_zero.mpr h)
  rw [push_eq]
  split_ifs with hnear
  · have hscale : p - q + (1.6 : ℝ) • (300 / ‖p - q‖ ^ 3) • (p - q) =
        (1 + 480 / ‖p - q‖ ^ 3) • (p - q) := by
      rw [smul_smul, add_smul, one_smul]
      congr 2
      ring
    rw [hscale, norm_smul, Real.norm_of_nonneg (by positivity)]
    field_simp
  · rw [smul_zero, add_zero, add_zero]

/-- What the pulls can take off, and the pushes add. -/
theorem lt_of_push {d : ℝ} (hd : 0 < d) :
    13.5 < d + (if d < 20 then 480 / d ^ 2 else 0) - 0.8 * (d / 10 + 0.5) := by
  split_ifs with hnear
  · -- the least distance is left for about `10` px
    have hmul : 13.9 * d ^ 2 < 0.92 * d ^ 3 + 480 := by
      rcases le_total d 15 with hle | hge
      · nlinarith [mul_nonneg (sq_nonneg (d - 10)) (by linarith : 0 ≤ d + 4.89)]
      · nlinarith [mul_nonneg (sq_nonneg d) (by linarith : 0 ≤ d - 15)]
    have hdiv : 13.9 - 0.92 * d < 480 / d ^ 2 := by
      rw [lt_div_iff₀ (by positivity)]
      nlinarith
    linarith
  · linarith

/-- **One tick.** -/
theorem lt_norm_move_sub_of_pair (h : Pair rs r o) (hne : r.position ≠ o.position) (t : Vec ℝ) :
    13.5 < ‖(move t.x t.y rs r).position - (move t.x t.y rs o).position‖ := by
  have hpos : 0 < ‖r.position - o.position‖ := norm_pos_iff.mpr (sub_ne_zero.mpr hne)
  have hpull : ‖(0.8 : ℝ) • (pull t r.position - pull t o.position)‖ ≤
      0.8 * (‖r.position - o.position‖ / 10 + 0.5) := by
    rw [norm_smul, Real.norm_of_nonneg (by norm_num)]
    exact mul_le_mul_of_nonneg_left (norm_pull_sub_pull_le t _ _) (by norm_num)
  calc (13.5 : ℝ)
      < ‖r.position - o.position‖ + (if ‖r.position - o.position‖ < 20 then
          480 / ‖r.position - o.position‖ ^ 2 else 0) -
            0.8 * (‖r.position - o.position‖ / 10 + 0.5) := lt_of_push hpos
    _ ≤ ‖r.position - o.position + (1.6 : ℝ) • push r.position o.position‖ -
          ‖(0.8 : ℝ) • (pull t r.position - pull t o.position)‖ := by
        rw [norm_add_push hne]
        exact sub_le_sub_left hpull _
    _ ≤ ‖(move t.x t.y rs r).position - (move t.x t.y rs o).position‖ := by
        rw [position_move_sub_of_pair h]
        exact norm_sub_le_norm_add _ _

/-! ### Runs -/

/-- The robots after ticks with some targets. -/
def runTargets {K : Type} [JsArith K] (rs : List (Robot K)) (ts : List (Vec K)) : List (Robot K) :=
  (ts.map SwarmAction.potential).foldl SwarmAction.apply rs

theorem runTargets_concat (rs : List (Robot ℝ)) (ts : List (Vec ℝ)) (t : Vec ℝ) :
    runTargets rs (ts ++ [t]) = (runTargets rs ts).map (move t.x t.y (runTargets rs ts)) := by
  unfold runTargets
  rw [List.map_append, List.foldl_append]
  rfl

/-- At some places of a list there are two robots in different places of the plane, more than
`bound` apart. -/
def Apart (bound : ℝ) (rs : List (Robot ℝ)) (i j : ℕ) : Prop :=
  ∃ r o, rs[i]? = some r ∧ rs[j]? = some o ∧ r.position ≠ o.position ∧
    bound < ‖r.position - o.position‖

theorem Apart.move {bound : ℝ} {i j : ℕ} (h : Apart bound rs i j)
    (hpair : ∀ r o, rs[i]? = some r → rs[j]? = some o → Pair rs r o) (t : Vec ℝ) :
    Apart 13.5 (rs.map (PotentialField.move t.x t.y rs)) i j := by
  obtain ⟨r, o, hr, ho, hne, -⟩ := h
  have hlt := lt_norm_move_sub_of_pair (hpair r o hr ho) hne t
  refine ⟨PotentialField.move t.x t.y rs r, PotentialField.move t.x t.y rs o, ?_, ?_, ?_, hlt⟩
  · rw [List.getElem?_map, hr]
    rfl
  · rw [List.getElem?_map, ho]
    rfl
  · intro heq
    rw [heq, sub_self, norm_zero] at hlt
    norm_num at hlt

end PotentialField

open PotentialField

variable {rs : List (Robot ℝ)} {i j : ℕ} {ts : List (Vec ℝ)}

/-- **Two robots are kept apart.** For every swarm and every two robots of it in different places:
in every run of one or more Potential Field ticks, with any targets, before each of which the two
have no neighbours but each other, they end more than `13.5` px apart. -/
theorem pair_kept_apart (hapart : Apart 0 rs i j) (hne : ts ≠ [])
    (hpair : ∀ pre t post, ts = pre ++ t :: post →
      ∀ r o, (runTargets rs pre)[i]? = some r → (runTargets rs pre)[j]? = some o →
        Pair (runTargets rs pre) r o) :
    Apart 13.5 (runTargets rs ts) i j := by
  induction ts using List.reverseRecOn with
  | nil => exact absurd rfl hne
  | append_singleton ts t ih =>
    rw [runTargets_concat]
    -- the first tick separates the two, the others find them separated
    rcases eq_or_ne ts [] with rfl | hts
    · exact hapart.move (hpair [] t [] rfl) t
    · refine (ih hts ?_).move (hpair ts t [] rfl) t
      rintro pre t' post rfl
      exact hpair pre t' (post ++ [t]) (by simp)

/-- In a swarm of two, neither can have another neighbour. -/
theorem pair_two {r o : Robot ℝ} (hid : o.id ≠ r.id) : Pair [r, o] r o := by
  refine ⟨hid, ?_, ?_⟩
  · exact List.filter_cons_of_neg (by simp)
  · have hself : near sepDist [o] o = [] := List.filter_cons_of_neg (by simp)
    calc near sepDist ([r] ++ [o]) o
        = near sepDist [r] o ++ near sepDist [o] o := List.filter_append [r] [o]
      _ = near sepDist [r] o := by rw [hself, List.append_nil]

theorem runTargets_two (r o : Robot ℝ) (ts : List (Vec ℝ)) :
    ∃ r' o', runTargets [r, o] ts = [r', o'] ∧ r'.id = r.id ∧ o'.id = o.id := by
  induction ts using List.reverseRecOn with
  | nil => exact ⟨r, o, rfl, rfl, rfl⟩
  | append_singleton ts t ih =>
    obtain ⟨r', o', hrun, hr, ho⟩ := ih
    rw [runTargets_concat, hrun]
    exact ⟨_, _, rfl, hr, ho⟩

/-- Two robots at distance `1`, called to one place and to another. -/
theorem pair_kept_apart_two :
    Apart 13.5 (runTargets [newRobot 0, ⟨1, ⟨1, 0⟩, ⟨0, 0⟩⟩]
      [⟨50, 50⟩, ⟨50, 50⟩, ⟨0, 100⟩]) 0 1 := by
  have hne : (Vec.zero : Vec ℝ) ≠ ⟨1, 0⟩ := fun heq => zero_ne_one (congrArg Vec.x heq)
  refine pair_kept_apart ⟨_, _, rfl, rfl, hne, ?_⟩ (List.cons_ne_nil _ _) ?_
  · exact norm_pos_iff.mpr (sub_ne_zero.mpr hne)
  · intro pre _ _ _ r o hr ho
    obtain ⟨r', o', hrun, hr', ho'⟩ :=
      runTargets_two (newRobot 0) ⟨1, ⟨1, 0⟩, ⟨0, 0⟩⟩ pre
    rw [hrun] at hr ho ⊢
    obtain rfl := Option.some.inj hr
    obtain rfl := Option.some.inj ho
    refine pair_two ?_
    rw [hr', ho']
    exact one_ne_zero

end SwarmBase
