import SwarmBase.Ui.Boids
import SwarmBase.Ui.Page
import SwarmBase.Ui.PotentialField
import SwarmBase.Ui.Seek

/-!
# The stored velocity

Each robot has a `velocity`, which the Boids rules read. `directSeek` and `moveToBoids` store in it
what they move the robot by. `moveToPotentialField` leaves it as it was, and `directSeek` does so
with a robot that has arrived.

`Ticked` is the page with a record of the robots as they were before the last tick.
`velocity_stored` is about its runs: the velocities are the displacements of the last tick as long
as `moveToPotentialField` is only run on robots that stand still (`AtRest`) and `directSeek` does
not find a robot that has arrived and still has a velocity (`StoresVelocity`).
-/

namespace SwarmBase

open Framework

/-! ### The page and the last tick -/

section Ticked

variable {K : Type}

def RobotsState.robots : RobotsState K → List (Robot K)
  | .list rs => rs
  | .robot r => [r]

/-- The robots after all queued updates. -/
def Page.robotList (p : Page K) : List (Robot K) :=
  p.robots.latest.value.elim [] RobotsState.robots

/-- The page, and the robots the last tick left as they were before it. -/
structure Ticked (K : Type) where
  page : Page K
  before : List (Robot K)

def Ticked.act [JsArith K] (s : Ticked K) (a : PageAction K) : Option (Ticked K) :=
  (s.page.act a).map fun q =>
    { page := q
      before := match a with
        | .tick => s.page.robotList.take q.robotList.length
        | _ => s.before }

def tickedSystem (K : Type) [JsArith K] : System (Ticked K) (PageAction K) :=
  .ofAct (fun s => s = ⟨Page.initial, []⟩) Ticked.act

theorem Ticked.act_iff [JsArith K] {s s' : Ticked K} {a : PageAction K} :
    s.act a = some s' ↔ s.page.act a = some s'.page ∧ s'.before = match a with
      | .tick => s.page.robotList.take s'.page.robotList.length
      | _ => s.before := by
  unfold act
  rw [Option.map_eq_some_iff]
  refine ⟨?_, ?_⟩
  · rintro ⟨q, hq, rfl⟩
    exact ⟨hq, rfl⟩
  · rintro ⟨hq, hbefore⟩
    refine ⟨s'.page, hq, ?_⟩
    rw [← hbefore]

end Ticked

variable {p q : Page ℝ} {s s' : Ticked ℝ} {a : PageAction ℝ} {rs rs' : List (Robot ℝ)}
  {r : Robot ℝ} {t : Vec ℝ}

/-- The velocities of the robots of a list are what they have moved by since another list. -/
def MovedByVelocity (rs rs' : List (Robot ℝ)) : Prop :=
  ∀ (i : ℕ) o r, rs[i]? = some o → rs'[i]? = some r → r.velocity = r.position.sub o.position

/-- The robots stand still and will not be moved by a Potential Field tick: they have no velocity,
are within the stopping distance of the target, and those in different places are at least the
separation distance apart. -/
def AtRest (t : Vec ℝ) (rs : List (Robot ℝ)) : Prop :=
  ∀ r ∈ rs, r.velocity = 0 ∧ ‖t - r.position‖ ≤ PotentialField.stoppingDist ∧
    PotentialField.Unpushed rs r

/-- The condition on a tick with timer `t`: if it calls `directSeek`, a robot that has arrived has
no velocity, and if it calls `moveToPotentialField`, the robots are at rest. -/
def StoresVelocity (p : Page ℝ) (t : Timer ℝ) : Prop :=
  ∀ rs, p.robots.latest.value = some (.list rs) →
    if p.robotsRef.bind RobotsState.length? = some 1 then
      ∀ r, rs.head? = some r → r.position = t.target → r.velocity = 0
    else t.swarmType = .potential → AtRest t.target rs

/-- The condition on the steps of a run. -/
def TicksStore (s : Ticked ℝ) (a : PageAction ℝ) : Prop :=
  a = .tick → ∀ t, s.page.timer = some t → StoresVelocity s.page t

/-! ### One tick -/

theorem movedByVelocity_take :
    MovedByVelocity (rs.take rs'.length) rs' ↔ MovedByVelocity rs rs' := by
  refine forall_congr' fun i => forall₂_congr fun o r => ?_
  refine ⟨?_, ?_⟩
  · intro h ho hr
    refine h ?_ hr
    rwa [List.getElem?_take_of_lt (List.getElem?_eq_some_iff.mp hr).1]
  · intro h ho hr
    rw [List.getElem?_take_of_lt (List.getElem?_eq_some_iff.mp hr).1] at ho
    exact h ho hr

theorem movedByVelocity_nil : MovedByVelocity rs [] := nofun

theorem movedByVelocity_map_iff (f : Robot ℝ → Robot ℝ) :
    MovedByVelocity rs (rs.map f) ↔ ∀ r ∈ rs, (f r).velocity = (f r).position.sub r.position := by
  refine ⟨?_, ?_⟩
  · intro h r hr
    obtain ⟨i, hi⟩ := List.mem_iff_getElem?.mp hr
    refine h i r (f r) hi ?_
    rw [List.getElem?_map, hi]
    rfl
  · intro h i o r ho hr
    rw [List.getElem?_map, ho] at hr
    obtain rfl := Option.some.inj hr
    exact h o (List.mem_of_getElem? ho)

theorem movedByVelocity_boids : MovedByVelocity rs (rs.map (Boids.move t.x t.y rs)) := by
  refine (movedByVelocity_map_iff _).mpr fun r _ => ?_
  rw [Boids.position_move, Vec.sub_eq, add_sub_cancel_left]

theorem movedByVelocity_potential_iff :
    MovedByVelocity rs (rs.map (PotentialField.move t.x t.y rs)) ↔
      ∀ r ∈ rs, r.velocity = (0.8 : ℝ) • PotentialField.force t rs r := by
  rw [movedByVelocity_map_iff]
  refine forall₂_congr fun r _ => ?_
  rw [Vec.sub_eq, PotentialField.position_move_sub]
  exact Iff.rfl

theorem velocity_directSeek_move (cx cy : ℝ) (r : Robot ℝ) :
    (DirectSeek.move cx cy r).velocity = (DirectSeek.move cx cy r).position.sub r.position :=
  Vec.ext (add_sub_cancel_left r.position.x _).symm (add_sub_cancel_left r.position.y _).symm

theorem movedByVelocity_singleton_iff {r' : Robot ℝ} {rest : List (Robot ℝ)} :
    MovedByVelocity (r :: rest) [r'] ↔ r'.velocity = r'.position.sub r.position := by
  refine ⟨?_, ?_⟩
  · exact fun h => h 0 r r' rfl rfl
  · intro h i o r'' ho hr
    obtain ⟨hi, rfl⟩ := List.getElem?_eq_some_iff.mp hr
    obtain rfl : i = 0 := Nat.lt_one_iff.mp hi
    obtain rfl := Option.some.inj ho
    exact h

/-- `directSeek` stores the displacement of a robot on its way. -/
theorem movedByVelocity_directSeek_iff (t : Vec ℝ) (rs : List (Robot ℝ)) :
    MovedByVelocity rs ((directSeek t.x t.y (.list rs)).elim [] RobotsState.robots) ↔
      ∀ r, rs.head? = some r → r.position = t → r.velocity = 0 := by
  cases rs with
  | nil => exact iff_of_true movedByVelocity_nil nofun
  | cons r rest =>
    have hat : (DirectSeek.dist t.x t.y r == 0) = true ↔ r.position = t := by
      rw [beq_iff_eq, DirectSeek.dist_eq, norm_eq_zero, sub_eq_zero]
      exact eq_comm
    have hhead : (∀ r', (r :: rest).head? = some r' → r'.position = t → r'.velocity = 0) ↔
        (r.position = t → r.velocity = 0) := by
      rw [List.head?_cons]
      exact ⟨fun h => h r rfl, by rintro h _ ⟨⟩; exact h⟩
    rw [hhead]
    show MovedByVelocity (r :: rest) ((if _ then some _ else some _ : Option _).elim [] _) ↔ _
    -- at the target the robot itself comes back, as it was
    by_cases h : r.position = t
    · rw [if_pos (hat.mpr h)]
      show MovedByVelocity (r :: rest) [r] ↔ _
      rw [movedByVelocity_singleton_iff, Vec.sub_eq, sub_self, imp_iff_right h]
    · rw [if_neg (mt hat.mp h)]
      show MovedByVelocity (r :: rest) [DirectSeek.move t.x t.y r] ↔ _
      rw [movedByVelocity_singleton_iff]
      exact iff_of_true (velocity_directSeek_move _ _ _) fun hr => absurd hr h

/-- What a tick has to find for its equation to hold afterwards, with the force that a Potential
Field tick computes. -/
def StoresForce (p : Page ℝ) (t : Timer ℝ) : Prop :=
  ∀ rs, p.robots.latest.value = some (.list rs) →
    if p.robotsRef.bind RobotsState.length? = some 1 then
      ∀ r, rs.head? = some r → r.position = t.target → r.velocity = 0
    else t.swarmType = .potential →
      ∀ r ∈ rs, r.velocity = (0.8 : ℝ) • PotentialField.force t.target rs r

/-- **One tick.** -/
theorem movedByVelocity_tick_iff (p : Page ℝ) (t : Timer ℝ) :
    MovedByVelocity p.robotList (p.tick t).robotList ↔ StoresForce p t := by
  have htick : (p.tick t).robotList =
      (p.robots.latest.value.bind (Page.updater t p.robotsRef)).elim [] RobotsState.robots := by
    unfold Page.robotList
    rw [Page.latest_tick]
    rfl
  unfold StoresForce
  rw [htick]
  unfold Page.robotList
  -- the updaters return only on a list
  cases p.robots.latest.value with
  | none => exact iff_of_true movedByVelocity_nil nofun
  | some state =>
    cases state with
    | robot r =>
      rw [Option.bind_some, Page.updater_robot]
      exact iff_of_true movedByVelocity_nil nofun
    | list rs =>
      have hlist : ∀ P : List (Robot ℝ) → Prop,
          (∀ rs', some (RobotsState.list rs) = some (.list rs') → P rs') ↔ P rs :=
        fun P => ⟨fun h => h rs rfl, by rintro h _ ⟨⟩; exact h⟩
      rw [hlist, Option.bind_some]
      unfold Page.updater
      -- which algorithm runs is decided by the length of the ref, not of the list
      split_ifs with hsingle
      · exact movedByVelocity_directSeek_iff t.target rs
      · cases t.swarmType with
        | boids => exact iff_of_true movedByVelocity_boids nofun
        | potential =>
          rw [imp_iff_right rfl]
          exact movedByVelocity_potential_iff

/-- On a robot that stands still and that nobody pushes there is no force exactly if it is within
the stopping distance. -/
theorem velocity_eq_force_iff (hrest : r.velocity = 0) (hfree : PotentialField.Unpushed rs r)
    (t : Vec ℝ) :
    r.velocity = (0.8 : ℝ) • PotentialField.force t rs r ↔
      ‖t - r.position‖ ≤ PotentialField.stoppingDist := by
  have hdamping : (0.8 : ℝ) ≠ 0 := by norm_num
  rw [hrest, PotentialField.force_of_unpushed hfree, eq_comm, smul_eq_zero_iff_right hdamping]
  exact PotentialField.pull_eq_zero_iff t r.position

/-- The condition of the step is enough for what the tick has to find. -/
theorem StoresVelocity.storesForce {t : Timer ℝ} (h : StoresVelocity p t) : StoresForce p t := by
  intro rs hrs
  have hcond := h rs hrs
  split_ifs at hcond ⊢ with hsingle
  · exact hcond
  · intro hpotential r hr
    obtain ⟨hrest, hstop, hfree⟩ := hcond hpotential r hr
    exact (velocity_eq_force_iff hrest hfree t.target).mpr hstop

/-- Where no Potential Field tick finds robots that move or push each other, it is what the tick has
to find. -/
theorem storesForce_iff {t : Timer ℝ}
    (hstill : p.robotsRef.bind RobotsState.length? ≠ some 1 → t.swarmType = .potential →
      ∀ rs, p.robots.latest.value = some (.list rs) →
        ∀ r ∈ rs, r.velocity = 0 ∧ PotentialField.Unpushed rs r) :
    StoresForce p t ↔ StoresVelocity p t := by
  refine ⟨fun h rs hrs => ?_, StoresVelocity.storesForce⟩
  have hcond := h rs hrs
  split_ifs at hcond ⊢ with hsingle
  · exact hcond
  · intro hpotential r hr
    obtain ⟨hrest, hfree⟩ := hstill hsingle hpotential rs hrs r hr
    have hstop := (velocity_eq_force_iff hrest hfree t.target).mp (hcond hpotential r hr)
    exact ⟨hrest, hstop, hfree⟩

/-! ### Between two ticks -/

/-- Between two ticks, robots are only appended. -/
theorem latest_of_not_tick (ha : p.act a = some q) (htick : a ≠ .tick) :
    q.robots.latest = p.robots.latest ∨ q.robots.latest = p.robots.latest.append := by
  cases a with
  | connect | onMoveCommand | setSwarmType | setLoading | updateEvents =>
    obtain rfl := Option.some.inj ha
    exact Or.inl rfl
  | setRobots =>
    obtain rfl := Option.some.inj ha
    exact Or.inr (Hook.latest_update _ _)
  | tick => exact absurd rfl htick
  | commit | effects => exact Or.inl (Page.latest_of_react ha (by simp)).1

theorem MovedByVelocity.append (h : MovedByVelocity rs rs') (hlen : rs.length ≤ rs'.length)
    (ks : List (Robot ℝ)) : MovedByVelocity rs (rs' ++ ks) := by
  intro i o r ho hr
  have hi : i < rs'.length := (List.getElem?_eq_some_iff.mp ho).1.trans_le hlen
  rw [List.getElem?_append_left hi] at hr
  exact h i o r ho hr

/-- Every robot that the last tick left is still there, and its velocity is what the tick moved it
by. If an updater threw, there are no robots. -/
structure VelocityStored (s : Ticked ℝ) : Prop where
  moved : MovedByVelocity s.before s.page.robotList
  kept : s.page.robots.latest.value ≠ none → s.before.length ≤ s.page.robotList.length

theorem Ticked.before_tick (ha : s.act .tick = some s') :
    s'.before = s.page.robotList.take s'.page.robotList.length :=
  (act_iff.mp ha).2

/-- A tick, in whatever state. -/
theorem moved_tick_iff (ha : s.act .tick = some s') {t : Timer ℝ} (ht : s.page.timer = some t) :
    MovedByVelocity s'.before s'.page.robotList ↔ StoresForce s.page t := by
  obtain ⟨t', ht', htick⟩ := Page.act_tick_iff.mp (Ticked.act_iff.mp ha).1
  obtain rfl := Option.some.inj (ht.symm.trans ht')
  rw [← movedByVelocity_tick_iff, htick, Ticked.before_tick ha, movedByVelocity_take]

theorem VelocityStored.of_append (h : VelocityStored s) (hbefore : s'.before = s.before)
    (hvalue : s'.page.robots.latest.value = s.page.robots.latest.value.bind appendRobot) :
    VelocityStored s' := by
  obtain ⟨hmoved, hkept⟩ := h
  unfold Page.robotList at hmoved hkept
  cases hlist : s.page.robots.latest.value.bind appendRobot with
  | none =>
    -- the list was lost before
    have hnone : s'.page.robotList = [] := by
      unfold Page.robotList
      rw [hvalue, hlist]
      rfl
    refine ⟨?_, fun hne => absurd (hvalue.trans hlist) hne⟩
    rw [hnone]
    exact movedByVelocity_nil
  | some state =>
    obtain ⟨old, hold, happend⟩ := Option.bind_eq_some_iff.mp hlist
    cases old with
    | robot r => cases happend
    | list rs =>
      obtain rfl := Option.some.inj happend
      have hnew : s'.page.robotList = rs ++ [newRobot rs.length] := by
        unfold Page.robotList
        rw [hvalue, hlist]
        rfl
      rw [hold] at hmoved hkept
      have hlen : s.before.length ≤ rs.length := hkept (Option.some_ne_none _)
      refine ⟨?_, fun _ => ?_⟩
      · rw [hbefore, hnew]
        exact MovedByVelocity.append hmoved hlen _
      · rw [hbefore, hnew, List.length_append]
        exact hlen.trans (Nat.le_add_right _ _)

/-- **Invariant preservation.** -/
theorem VelocityStored.act (h : VelocityStored s) (hG : TicksStore s a) (ha : s.act a = some s') :
    VelocityStored s' := by
  by_cases htick : a = .tick
  · obtain rfl := htick
    obtain ⟨t, ht, -⟩ := Page.act_tick_iff.mp (Ticked.act_iff.mp ha).1
    refine ⟨(moved_tick_iff ha ht).mpr (hG rfl t ht).storesForce, fun _ => ?_⟩
    rw [Ticked.before_tick ha]
    exact List.length_take_le _ _
  · obtain ⟨hact, hbefore⟩ := Ticked.act_iff.mp ha
    have hsame : s'.before = s.before := by
      rw [hbefore]
      split
      · exact absurd rfl htick
      · rfl
    rcases latest_of_not_tick hact htick with hlatest | hlatest
    · have hlist : s'.page.robotList = s.page.robotList := by
        unfold Page.robotList
        rw [hlatest]
      exact ⟨by rw [hsame, hlist]; exact h.moved, by rw [hsame, hlist, hlatest]; exact h.kept⟩
    · -- a registration
      have hvalue : s'.page.robots.latest.value = s.page.robots.latest.value.bind appendRobot :=
        congrArg RobotsCell.value hlatest
      refine VelocityStored.of_append h hsame hvalue

/-! ### Whole runs -/

/-- **When the stored velocity is the last displacement.** In every run of the page whose ticks
run `moveToPotentialField` only on robots at rest, and `directSeek` not on a robot that has arrived
and has a velocity: the velocity of every robot is, after every tick and until the next one, its
position less the one it had before the tick. In whatever state, a tick that runs `directSeek` or
`moveToBoids`, or `moveToPotentialField` on robots that stand still and do not push each other,
breaks the equation if it does not meet the condition. -/
theorem velocity_stored (s : Ticked ℝ) :
    (∀ ls, ((tickedSystem ℝ).restrict TicksStore).Run ⟨Page.initial, []⟩ ls s →
      MovedByVelocity s.before s.page.robotList) ∧
    (∀ s' t, s.act .tick = some s' → s.page.timer = some t →
      (s.page.robotsRef.bind RobotsState.length? ≠ some 1 → t.swarmType = .potential →
        ∀ rs, s.page.robots.latest.value = some (.list rs) →
          ∀ r ∈ rs, r.velocity = 0 ∧ PotentialField.Unpushed rs r) →
      (MovedByVelocity s'.before s'.page.robotList ↔ StoresVelocity s.page t)) := by
  refine ⟨fun ls hrun => ?_, fun s' t ha ht hstill => ?_⟩
  · have hinv : VelocityStored s := by
      refine hrun.invariant (I := VelocityStored) ⟨nofun, fun _ => Nat.le_refl _⟩ ?_
      rintro s a s' h ⟨hG, ha⟩
      exact h.act hG ha
    exact hinv.moved
  · rw [moved_tick_iff ha ht, storesForce_iff hstill]

/-- A robot and a target, the first tick, and a second robot, up to the commit; and what the effects
of the commit lead to. -/
theorem exists_second_tick :
    ∃ s s₁ s₂ s₃ s₄ : Ticked ℝ, (tickedSystem ℝ).Run ⟨Page.initial, []⟩
        [.setRobots, .onMoveCommand ⟨10, 0⟩, .commit, .effects] s ∧
      s.act .tick = some s₁ ∧ s.page.timer = some ⟨0, ⟨10, 0⟩, .boids⟩ ∧
      s.page.robotsRef = some (.list [newRobot 0]) ∧
      s.page.robots.latest.value = some (.list [newRobot 0]) ∧
      s₁.act .setRobots = some s₂ ∧
      s₂.page.robots.latest.value = (directSeek 10 0 (.list [newRobot 0])).bind appendRobot ∧
      s₂.page.mounted = true ∧ s₂.page.hasUpdates = true ∧ s₂.page.effectsPending = false ∧
      Ticked.act ⟨s₂.page.render, s₂.before⟩ .effects = some s₃ ∧ s₃.act .tick = some s₄ ∧
      s₃.page.timer = some ⟨0, ⟨10, 0⟩, .boids⟩ ∧
      s₃.page.robotsRef = s₂.page.robots.latest.value ∧
      s₃.page.robots.latest.value = s₂.page.robots.latest.value ∧
      s₄.page.robots.latest.value = s₃.page.robots.latest.value.bind
        (Page.updater ⟨0, ⟨10, 0⟩, .boids⟩ s₃.page.robotsRef) :=
  ⟨_, _, _, _, _, .of_runAct rfl, rfl, rfl, rfl, rfl, rfl, rfl, rfl, rfl, rfl, rfl, rfl, rfl, rfl,
    rfl, rfl⟩

/-- A tick of `directSeek`, and after a second registration one of `moveToBoids`. -/
theorem velocity_stored_seek_boids :
    ∃ s : Ticked ℝ, (tickedSystem ℝ).Run ⟨Page.initial, []⟩ [.setRobots, .onMoveCommand ⟨10, 0⟩,
        .commit, .effects, .tick, .setRobots, .commit, .effects, .tick] s ∧
      s.before = [DirectSeek.move 10 0 (newRobot 0), newRobot 1] ∧
      MovedByVelocity s.before s.page.robotList := by
  obtain ⟨s, s₁, s₂, s₃, s₄, hstart, hseek, ht, href, hval, hregister, hval₂, hmounted, hupdates,
    hsettled, heffects, hboids, ht₃, href₃, hval₃, hval₄⟩ := exists_second_tick
  have hway : (newRobot 0).position ≠ (⟨10, 0⟩ : Vec ℝ) := by
    intro hat
    have hzero : (0 : ℝ) = 10 := congrArg Vec.x hat
    norm_num at hzero
  -- `directSeek` finds the robot on its way
  have hstores : StoresVelocity s.page ⟨0, ⟨10, 0⟩, .boids⟩ := by
    intro rs hrs
    obtain rfl := RobotsState.list.inj (Option.some.inj (hval.symm.trans hrs))
    rw [href, if_pos (show (some (RobotsState.list [newRobot (K := ℝ) 0])).bind
      RobotsState.length? = some 1 from rfl)]
    rintro r ⟨⟩ hat
    exact absurd hat hway
  have htwo : s₂.page.robots.latest.value =
      some (.list [DirectSeek.move 10 0 (newRobot 0), newRobot 1]) := by
    have hseek : directSeek 10 0 (.list [newRobot 0]) =
        some (.list [DirectSeek.move (10 : ℝ) 0 (newRobot 0)]) :=
      (directSeek_singleton ⟨10, 0⟩ (newRobot 0)).trans (if_neg hway)
    rw [hval₂, hseek]
    rfl
  have hcommit : s₂.act .commit = some ⟨s₂.page.render, s₂.before⟩ := by
    have hact := Page.act_commit_iff.mpr ⟨⟨hmounted, hupdates, hsettled⟩, Page.commit_eq htwo⟩
    exact Ticked.act_iff.mpr ⟨hact, rfl⟩
  -- the second tick finds two robots, and runs `moveToBoids`
  have hstores₃ : StoresVelocity s₃.page ⟨0, ⟨10, 0⟩, .boids⟩ := by
    intro rs _
    rw [href₃, htwo, if_neg (by decide)]
    exact nofun
  have hfree : ∀ k : PageAction ℝ, k ≠ .tick → ∀ s, TicksStore s k :=
    fun k hk s htick => absurd htick hk
  have hrun := hstart.to_restrict (G := TicksStore) fun k hk =>
    hfree k (ne_of_mem_of_not_mem hk (by simp))
  have hrun₁ := hrun.concat ⟨fun _ t ht' => Option.some.inj (ht.symm.trans ht') ▸ hstores, hseek⟩
  have hrun₂ := hrun₁.concat ⟨hfree .setRobots nofun s₁, hregister⟩
  have hrun₃ := (hrun₂.concat ⟨hfree .commit nofun s₂, hcommit⟩).concat
    ⟨hfree .effects nofun _, heffects⟩
  have hrun₄ := hrun₃.concat
    ⟨fun _ t ht' => Option.some.inj (ht₃.symm.trans ht') ▸ hstores₃, hboids⟩
  refine ⟨s₄, hrun₄.of_restrict, ?_, (velocity_stored s₄).1 _ hrun₄⟩
  -- both robots are still there
  have hmany : s₃.page.robotsRef.bind RobotsState.length? ≠ some 1 := by
    rw [href₃, htwo]
    decide
  obtain ⟨move, -, hmove⟩ := Page.updater_eq_map ⟨0, ⟨10, 0⟩, .boids⟩ hmany
    [DirectSeek.move 10 0 (newRobot 0), newRobot 1]
  rw [Ticked.before_tick hboids]
  unfold Page.robotList
  rw [hval₄, hval₃, htwo, Option.bind_some, hmove]
  rfl

/-- Two robots and a Potential Field, and the first tick. -/
theorem exists_first_tick (v : Vec ℝ) :
    ∃ s s', (tickedSystem ℝ).Run ⟨Page.initial, []⟩
        [.setRobots, .setRobots, .setSwarmType .potential, .onMoveCommand v, .commit, .effects] s ∧
      s.act .tick = some s' ∧ s.page.timer = some ⟨0, v, .potential⟩ ∧
      s.page.robotsRef = some (.list [newRobot 0, newRobot 1]) ∧
      s.page.robots.latest.value = some (.list [newRobot 0, newRobot 1]) :=
  ⟨_, _, System.Run.of_runAct rfl, rfl, rfl, rfl, rfl⟩

/-- Two robots at rest are moved by a Potential Field tick, and stay at rest. -/
theorem potential_forgets_velocity :
    ¬ ∀ ls s, (tickedSystem ℝ).Run ⟨Page.initial, []⟩ ls s →
      MovedByVelocity s.before s.page.robotList := by
  intro h
  obtain ⟨s, s', hrun, hact, ht, href, hval⟩ := exists_first_tick ⟨100, 0⟩
  have hstores := (moved_tick_iff hact ht).mp (h _ _ (hrun.concat hact)) _ hval
  rw [href] at hstores
  have hrest := hstores rfl (newRobot 0) List.mem_cons_self
  -- in one place the robots do not push each other, so the force is the pull
  have hpush : PotentialField.fRep [newRobot 0, newRobot 1] (newRobot 0) = (0 : Vec ℝ) := by
    rw [PotentialField.fRep_eq_others]
    show ([newRobot 1].map fun o => PotentialField.push Vec.zero o.position).sum = (0 : Vec ℝ)
    rw [List.map_singleton, List.sum_singleton]
    exact PotentialField.push_self _
  have hdist : ‖(⟨100, 0⟩ : Vec ℝ) - Vec.zero‖ = 100 := by
    rw [← Vec.norm_eq]
    show √((100 - 0) ^ 2 + (0 - 0) ^ 2) = 100
    rw [sub_zero, sub_zero, zero_pow two_ne_zero, add_zero]
    exact Real.sqrt_sq (by norm_num)
  have hpull : (PotentialField.pull ⟨100, 0⟩ (Vec.zero : Vec ℝ)).x = 5 := by
    rw [PotentialField.pull_eq, hdist, if_pos (by norm_num), Vec.smul_x]
    show min ((100 : ℝ) / 10) 5 / 100 * (100 - 0) = 5
    norm_num
  rw [← PotentialField.fAtt_add_fRep, hpush, add_zero, PotentialField.fAtt_eq] at hrest
  have hx : (0 : ℝ) = 0.8 * 5 := by
    rw [← hpull, ← Vec.smul_x]
    exact congrArg Vec.x hrest
  norm_num at hx

end SwarmBase