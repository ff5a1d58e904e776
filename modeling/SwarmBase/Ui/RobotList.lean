import SwarmBase.Ui.Page

/-!
# What becomes of the robot list

Four updaters change the `robots` state: one appends a robot, three move the robots. The
appending one and the two swarm algorithms keep every robot. `directSeek` keeps the robots only if
the list it runs on has exactly one, which is not yet at the target (`updater_map_id_iff`): it
returns a list of one robot whatever it is given, and at the target it returns the robot itself,
not a list. It is chosen by the length of `robotsRef.current`, which can be older than
that list.

* `RobotsKept` — the invariant, with `RobotsKept.act` for one step;
* `robots_survive` — it holds along every run in which `directSeek` is only called when it keeps
  the robots;
* `lone_robot_replaced` — a lone robot sent where it already is.
-/

namespace SwarmBase

open Framework

variable {K : Type}

/-- The robots are a list, with the ids `0, 1, 2, …` in order, one for each registration. -/
def RobotsCell.Intact (c : RobotsCell K) : Prop :=
  ∃ rs, c.value = some (.list rs) ∧ rs.map Robot.id = List.range c.appends

theorem RobotsCell.Intact.length_eq {c : RobotsCell K} (h : c.Intact) {rs : List (Robot K)}
    (hrs : c.value = some (.list rs)) : rs.length = c.appends := by
  obtain ⟨rs', hval, hids⟩ := h
  obtain rfl := RobotsState.list.inj (Option.some.inj (hval.symm.trans hrs))
  rw [← List.length_map (f := Robot.id), hids, List.length_range]

/-- The robot list has been kept so far. -/
structure RobotsKept (p : Page K) : Prop where
  latest : p.robots.latest.Intact
  rendered : p.robots.rendered.Intact
  appends_le : p.robots.rendered.appends ≤ p.robots.latest.appends
  robotsRef : ∃ rs, p.robotsRef = some (.list rs)
  canvas : ∃ rs, p.canvas = some (.list rs)
  mounted : p.mounted = true

/-- Whether a step appends a robot. -/
def PageAction.isSetRobots : PageAction K → Bool
  | .setRobots => true
  | _ => false

section Updaters

variable [JsArith K] {cx cy : K}

/-! ### One updater -/

theorem directSeek_cons (r : Robot K) (rest : List (Robot K)) :
    directSeek cx cy (.list (r :: rest)) =
      if DirectSeek.dist cx cy r == 0 then some (.robot r)
      else some (.list [DirectSeek.move cx cy r]) := rfl

/-- `directSeek` keeps the robots exactly if the list it runs on is one robot that is not at the
target. -/
theorem directSeek_map_id_iff (rs : List (Robot K)) :
    (∃ rs', directSeek cx cy (.list rs) = some (.list rs') ∧ rs'.map Robot.id = rs.map Robot.id) ↔
      ∃ r, rs = [r] ∧ (DirectSeek.dist cx cy r == 0) = false := by
  refine ⟨?_, ?_⟩
  · rintro ⟨rs', h, hids⟩
    cases rs with
    | nil => cases h
    | cons r rest =>
      rw [directSeek_cons] at h
      split_ifs at h with hat
      · cases h
      -- what comes back has one robot, so the list had one
      obtain rfl := RobotsState.list.inj (Option.some.inj h)
      have hlen := congrArg List.length hids
      rw [List.length_map, List.length_map, List.length_cons] at hlen
      obtain rfl : rest = [] := List.length_eq_zero_iff.mp (Nat.succ.inj hlen).symm
      exact ⟨r, rfl, Bool.eq_false_of_not_eq_true hat⟩
  · -- a lone robot on its way stays the lone robot
    rintro ⟨r, rfl, hat⟩
    refine ⟨[DirectSeek.move cx cy r], ?_, rfl⟩
    rw [directSeek_cons, hat]
    rfl

theorem RobotsCell.Intact.append {c : RobotsCell K} (h : c.Intact) :
    c.append.Intact := by
  obtain ⟨rs, hval, hids⟩ := id h
  -- the id of the new robot is the length of the list
  have hlen : rs.length = c.appends := h.length_eq hval
  refine ⟨rs ++ [newRobot rs.length], ?_, ?_⟩
  · change c.value.bind appendRobot = _
    rw [hval]
    rfl
  · change _ = List.range (c.appends + 1)
    rw [List.map_append, hids, List.range_succ, ← hlen]
    rfl

/-- The interval callback's updater keeps the robots exactly if it is not `directSeek`, or runs on
one robot that is not at the target. -/
theorem updater_map_id_iff (t : Timer K) (ref : Option (RobotsState K)) (rs : List (Robot K)) :
    (∃ rs', Page.updater t ref (.list rs) = some (.list rs') ∧
        rs'.map Robot.id = rs.map Robot.id) ↔
      (ref.bind RobotsState.length? = some 1 →
        ∃ r, rs = [r] ∧ (DirectSeek.dist t.target.x t.target.y r == 0) = false) := by
  -- the ref, not the list, decides which updater it is
  by_cases hsingle : ref.bind RobotsState.length? = some 1
  · unfold Page.updater
    rw [if_pos hsingle, directSeek_map_id_iff]
    exact ⟨fun h _ => h, fun h => h hsingle⟩
  · refine iff_of_true ?_ fun h => absurd h hsingle
    obtain ⟨move, hmove, heq⟩ := Page.updater_eq_map t hsingle rs
    refine ⟨rs.map move, heq, ?_⟩
    rw [List.map_map]
    exact List.map_congr_left fun r _ => hmove r

omit [JsArith K] in
theorem RobotsCell.Intact.move_iff {c : RobotsCell K} {rs : List (Robot K)}
    (hval : c.value = some (.list rs)) (hids : rs.map Robot.id = List.range c.appends)
    (f : RobotsState K → Option (RobotsState K)) :
    (c.move f).Intact ↔
      ∃ rs', f (.list rs) = some (.list rs') ∧ rs'.map Robot.id = rs.map Robot.id := by
  have hmove : (c.move f).value = f (.list rs) := by
    unfold RobotsCell.move
    rw [hval]
    rfl
  unfold RobotsCell.Intact
  rw [hmove, hids]
  rfl

end Updaters

/-! ### The page -/

section Page

variable [JsArith K] {p q : Page K}

/-- The interval callback would keep the robots: if it calls `directSeek`, the updater will run on
one robot that is not at the target. -/
def TickKeeps (p : Page K) : Prop :=
  ∀ t, p.timer = some t → p.robotsRef.bind RobotsState.length? = some 1 →
    ∃ r, p.robots.latest.value = some (.list [r]) ∧
      (DirectSeek.dist t.target.x t.target.y r == 0) = false

/-- The condition on the steps of a run. -/
def KeepsRobots (p : Page K) (a : PageAction K) : Prop := a = .tick → TickKeeps p

/-- The condition is exact, tick by tick. -/
theorem tick_intact_iff {t : Timer K} (ht : p.timer = some t) (h : p.robots.latest.Intact) :
    (p.tick t).robots.latest.Intact ↔ TickKeeps p := by
  obtain ⟨rs, hval, hids⟩ := h
  rw [Page.latest_tick, RobotsCell.Intact.move_iff hval hids, updater_map_id_iff]
  unfold TickKeeps
  rw [hval, ht]
  refine ⟨?_, ?_⟩
  · rintro h t' ⟨⟩ hsingle
    obtain ⟨r, rfl, hat⟩ := h hsingle
    exact ⟨r, rfl, hat⟩
  · intro h hsingle
    obtain ⟨r, hr, hat⟩ := h t rfl hsingle
    exact ⟨r, RobotsState.list.inj (Option.some.inj hr), hat⟩

omit [JsArith K] in
theorem RobotsKept.initial : RobotsKept (Page.initial : Page K) where
  latest := ⟨[], rfl, rfl⟩
  rendered := ⟨[], rfl, rfl⟩
  appends_le := Nat.le_refl _
  robotsRef := ⟨[], rfl⟩
  canvas := ⟨[], rfl⟩
  mounted := rfl

omit [JsArith K] in
/-- A step that leaves the robots alone. -/
theorem RobotsKept.frame (h : RobotsKept p) (hrobots : q.robots = p.robots)
    (href : q.robotsRef = p.robotsRef) (hcanvas : q.canvas = p.canvas)
    (hmounted : q.mounted = p.mounted) : RobotsKept q where
  latest := by rw [hrobots]; exact h.latest
  rendered := by rw [hrobots]; exact h.rendered
  appends_le := by rw [hrobots]; exact h.appends_le
  robotsRef := by rw [href]; exact h.robotsRef
  canvas := by rw [hcanvas]; exact h.canvas
  mounted := hmounted.trans h.mounted

omit [JsArith K] in
/-- A step that updates the robots, and keeps them. -/
theorem RobotsKept.update (h : RobotsKept p) (f : RobotsCell K → RobotsCell K)
    (hf : (f p.robots.latest).Intact)
    (happends : p.robots.latest.appends ≤ (f p.robots.latest).appends)
    (hrobots : q.robots = p.robots.update f) (href : q.robotsRef = p.robotsRef)
    (hcanvas : q.canvas = p.canvas) (hmounted : q.mounted = p.mounted) : RobotsKept q where
  latest := by rwa [hrobots, Hook.latest_update]
  rendered := by rw [hrobots, Hook.rendered_update]; exact h.rendered
  appends_le := by
    rw [hrobots, Hook.latest_update, Hook.rendered_update]
    exact h.appends_le.trans happends
  robotsRef := by rw [href]; exact h.robotsRef
  canvas := by rw [hcanvas]; exact h.canvas
  mounted := hmounted.trans h.mounted

omit [JsArith K] in
/-- No updater threw, so the render goes through. -/
theorem RobotsKept.commit_eq (h : RobotsKept p) : p.commit = p.render := by
  obtain ⟨rs, hval, -⟩ := h.latest
  exact Page.commit_eq hval

omit [JsArith K] in
/-- `RobotCanvas` is given a list, so the effects go through. -/
theorem RobotsKept.effects_eq (h : RobotsKept p) : p.effects = p.runEffects := by
  obtain ⟨rs, hcanvas⟩ := h.canvas
  exact Page.effects_eq hcanvas

omit [JsArith K] in
theorem RobotsKept.render (h : RobotsKept p) : RobotsKept p.render where
  latest := h.latest
  rendered := h.latest
  appends_le := Nat.le_refl _
  robotsRef := h.robotsRef
  canvas := h.robotsRef
  mounted := h.mounted

omit [JsArith K] in
theorem RobotsKept.runEffects (h : RobotsKept p) : RobotsKept p.runEffects where
  latest := h.latest
  rendered := h.rendered
  appends_le := h.appends_le
  robotsRef := by
    obtain ⟨rs, hval, -⟩ := h.rendered
    exact ⟨rs, hval⟩
  canvas := h.canvas
  mounted := h.mounted

/-- **Invariant preservation.** -/
theorem RobotsKept.act {a : PageAction K} (h : RobotsKept p) (hG : KeepsRobots p a)
    (ha : p.act a = some q) :
    RobotsKept q ∧
      q.robots.latest.appends = p.robots.latest.appends + if a.isSetRobots then 1 else 0 := by
  cases a with
  | connect | onMoveCommand | setSwarmType | setLoading | updateEvents =>
    obtain rfl := Option.some.inj ha
    exact ⟨h.frame rfl rfl rfl rfl, rfl⟩
  | setRobots =>
    obtain rfl := Option.some.inj ha
    refine ⟨h.update RobotsCell.append h.latest.append (Nat.le_succ _) rfl rfl rfl rfl, ?_⟩
    exact congrArg RobotsCell.appends (Hook.latest_update _ _)
  | tick =>
    obtain ⟨t, ht, rfl⟩ := Page.act_tick_iff.mp ha
    -- the only step that needs the condition
    have hintact := (tick_intact_iff ht h.latest).mpr (hG rfl)
    rw [Page.latest_tick] at hintact ⊢
    exact ⟨h.update _ hintact (Nat.le_refl _) rfl rfl rfl rfl, rfl⟩
  | commit =>
    obtain ⟨-, rfl⟩ := Page.act_commit_iff.mp ha
    rw [h.commit_eq]
    exact ⟨h.render, rfl⟩
  | effects =>
    obtain ⟨-, rfl⟩ := Page.act_effects_iff.mp ha
    rw [h.effects_eq]
    exact ⟨h.runEffects, rfl⟩

/-! ### Whole runs -/

theorem RobotsKept.run {ls : List (PageAction K)} (h : RobotsKept p)
    (hrun : ((pageSystem K).restrict KeepsRobots).Run p ls q) :
    RobotsKept q ∧
      q.robots.latest.appends = p.robots.latest.appends + ls.countP PageAction.isSetRobots := by
  refine hrun.induction (P := fun ls q => RobotsKept q ∧
    q.robots.latest.appends = p.robots.latest.appends + ls.countP PageAction.isSetRobots)
    ⟨h, rfl⟩ ?_
  -- one robot for each registration so far
  rintro ls q a q' - ⟨hkept, hcount⟩ ⟨hG, ha⟩
  obtain ⟨hkept', hcount'⟩ := hkept.act hG ha
  refine ⟨hkept', ?_⟩
  rw [hcount', hcount, List.countP_append, List.countP_singleton, Nat.add_assoc]

/-- **The robot list survives.** At every type of numbers, and along every run of the page in which
a tick calls `directSeek` only if the list its updater will run on is one robot that is not at the
target: the `robots` state is a list, whose ids are `0, …, n - 1` in order after `n`
registrations, and so is what was last rendered, after the registrations up to then. -/
theorem robots_survive {ls : List (PageAction K)}
    (h : ((pageSystem K).restrict KeepsRobots).Run Page.initial ls p) :
    (∃ rs, p.robots.latest.value = some (.list rs) ∧
      rs.map Robot.id = List.range (ls.countP PageAction.isSetRobots)) ∧
    ∃ rs n, p.robots.rendered.value = some (.list rs) ∧ rs.map Robot.id = List.range n ∧
      n ≤ ls.countP PageAction.isSetRobots := by
  obtain ⟨hkept, hcount⟩ := RobotsKept.initial.run h
  have hzero : (Page.initial : Page K).robots.latest.appends = 0 := rfl
  rw [hzero, Nat.zero_add] at hcount
  obtain ⟨rs, hval, hids⟩ := hkept.rendered
  refine ⟨?_, rs, _, hval, hids, ?_⟩
  · rw [← hcount]
    exact hkept.latest
  · rw [← hcount]
    exact hkept.appends_le

/-! ### The first robot -/

/-- The first robot of a list, if there is one, has id `0`. -/
def FirstIsZero (s : Option (RobotsState K)) : Prop :=
  ∀ r rest, s = some (.list (r :: rest)) → r.id = 0

/-- Every robot list of the page starts with robot `0`, whatever becomes of the others. -/
structure StartsAtZero (p : Page K) : Prop where
  latest : FirstIsZero p.robots.latest.value
  rendered : FirstIsZero p.robots.rendered.value
  robotsRef : FirstIsZero p.robotsRef
  onClickRef : FirstIsZero p.onClickRef.robots

/-- No movement updater changes who is first. -/
theorem updater_first {t : Timer K} {ref : Option (RobotsState K)} {s : RobotsState K}
    {r' : Robot K} {rest' : List (Robot K)}
    (h : Page.updater t ref s = some (.list (r' :: rest'))) :
    ∃ r rest, s = .list (r :: rest) ∧ r'.id = r.id := by
  cases s with
  | robot r =>
    rw [Page.updater_robot] at h
    cases h
  | list rs =>
    by_cases hsingle : ref.bind RobotsState.length? = some 1
    · unfold Page.updater at h
      rw [if_pos hsingle] at h
      cases rs with
      | nil => cases h
      | cons r rest =>
        -- `directSeek` moves the first robot, or returns it in place of a list
        rw [directSeek_cons] at h
        split_ifs at h <;> cases h
        exact ⟨r, rest, rfl, rfl⟩
    · obtain ⟨move, hmove, heq⟩ := Page.updater_eq_map t hsingle rs
      rw [heq] at h
      cases rs with
      | nil => cases h
      | cons r rest =>
        cases h
        exact ⟨r, rest, rfl, hmove r⟩

theorem FirstIsZero.updater {c : RobotsCell K} (h : FirstIsZero c.value) (t : Timer K)
    (ref : Option (RobotsState K)) : FirstIsZero (c.move (Page.updater t ref)).value := by
  intro r' rest' hval
  obtain ⟨s, hs, hmove⟩ := Option.bind_eq_some_iff.mp hval
  -- the list before the updater starts with the same id
  obtain ⟨r, rest, rfl, hid⟩ := updater_first hmove
  exact hid.trans (h r rest hs)

/-- The robot appended to the empty list has id `0`. -/
theorem FirstIsZero.append {c : RobotsCell K} (h : FirstIsZero c.value) :
    FirstIsZero c.append.value := by
  intro r' rest' hval
  obtain ⟨s, hs, happend⟩ := Option.bind_eq_some_iff.mp hval
  cases s with
  | robot r => cases happend
  | list rs =>
    cases rs with
    | nil =>
      cases happend
      rfl
    | cons r rest =>
      have hid : r'.id = r.id := by
        cases happend
        rfl
      exact hid.trans (h r rest hs)

omit [JsArith K] in
theorem StartsAtZero.initial : StartsAtZero (Page.initial : Page K) := by
  have hnil : FirstIsZero (some (.list []) : Option (RobotsState K)) := by
    intro r rest h
    cases h
  exact ⟨hnil, hnil, hnil, hnil⟩

theorem StartsAtZero.act {a : PageAction K} (h : StartsAtZero p) (ha : p.act a = some q) :
    StartsAtZero q := by
  cases a with
  | connect | onMoveCommand | setSwarmType | setLoading | updateEvents =>
    obtain rfl := Option.some.inj ha
    exact ⟨h.latest, h.rendered, h.robotsRef, h.onClickRef⟩
  | setRobots =>
    obtain rfl := Option.some.inj ha
    refine ⟨?_, h.rendered, h.robotsRef, h.onClickRef⟩
    change FirstIsZero (p.robots.update RobotsCell.append).latest.value
    rw [Hook.latest_update]
    exact h.latest.append
  | tick =>
    obtain ⟨t, -, rfl⟩ := Page.act_tick_iff.mp ha
    refine ⟨?_, h.rendered, h.robotsRef, h.onClickRef⟩
    rw [Page.latest_tick]
    exact h.latest.updater t p.robotsRef
  | commit =>
    obtain rfl | rfl := Page.act_commit_cases ha
    · exact ⟨h.latest, h.latest, h.robotsRef, h.onClickRef⟩
    · exact ⟨h.latest, h.rendered, h.robotsRef, h.onClickRef⟩
  | effects =>
    obtain rfl | rfl := Page.act_effects_cases ha
    · exact ⟨h.latest, h.rendered, h.rendered, h.rendered⟩
    · exact ⟨h.latest, h.rendered, h.rendered, h.rendered⟩

theorem StartsAtZero.run {as : List (PageAction K)} (h : StartsAtZero p)
    (hrun : (pageSystem K).Run p as q) : StartsAtZero q :=
  hrun.invariant h fun _ _ _ hp ha => StartsAtZero.act hp ha

end Page

/-- A robot at the origin sent to `{ 3, 4 }`. -/
theorem robots_survive_seek : ∃ p : Page ℝ,
    (∃ rs, p.robots.latest.value = some (.list rs) ∧ rs.map Robot.id = List.range 1) ∧
    ∃ rs n, p.robots.rendered.value = some (.list rs) ∧ rs.map Robot.id = List.range n ∧ n ≤ 1 := by
  have hstart : (pageSystem ℝ).Run Page.initial
      [.setRobots, .onMoveCommand ⟨3, 4⟩, .commit, .effects] _ := System.Run.of_runAct rfl
  have hdist : (DirectSeek.dist (3 : ℝ) 4 (newRobot 0) == 0) = false := by
    have hne : √((3 - 0 : ℝ) ^ 2 + (4 - 0) ^ 2) ≠ 0 := by positivity
    exact beq_eq_false_iff_ne.mpr hne
  have hbefore := hstart.to_restrict (G := KeepsRobots) fun a ha q hq => by simp [hq] at ha
  -- the list has one robot, at distance 5 from the target
  have htick := hbefore.extend .tick (by rintro - t ⟨⟩ -; exact ⟨newRobot 0, rfl, hdist⟩) rfl [] rfl
    nofun
  exact ⟨_, robots_survive htick⟩

/-- A robot at the origin sent to the origin: the robot takes the place of the list. -/
theorem lone_robot_replaced :
    ¬ ∀ (ls : List (PageAction ℝ)) (p : Page ℝ), (pageSystem ℝ).Run Page.initial ls p →
      ∃ rs, p.robots.latest.value = some (.list rs) ∧
        rs.map Robot.id = List.range (ls.countP PageAction.isSetRobots) := by
  intro h
  obtain ⟨rs, hval, -⟩ := h [.setRobots, .onMoveCommand ⟨0, 0⟩, .commit, .effects, .tick] _
    (System.Run.of_runAct rfl)
  -- the distance is exactly zero
  have hat : (DirectSeek.dist (0 : ℝ) 0 (newRobot 0) == 0) = true := by
    have hzero : √((0 - 0 : ℝ) ^ 2 + (0 - 0) ^ 2) = 0 := by simp
    exact beq_iff_eq.mpr hzero
  have hseek : directSeek (0 : ℝ) 0 (.list [newRobot 0]) = some (.robot (newRobot 0)) := by
    rw [directSeek_cons, hat]
    rfl
  have hlist : some (RobotsState.robot (newRobot 0)) = some (.list rs) := hseek.symm.trans hval
  cases hlist

end SwarmBase
