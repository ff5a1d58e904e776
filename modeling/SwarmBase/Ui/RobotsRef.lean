import SwarmBase.Ui.Page

/-!
# What the canvas is given

A render passes `robotsRef.current` to `RobotCanvas`, and the effect that stores the robots in
`robotsRef` runs after the commit. So the canvas is given the robots of the commit before
(`commit_canvas`), and no other list until another state update leads to another commit, which
shows the robots if it is about something else (`commit_showsRobots_iff`).

* `FollowsRobots` — the invariant: once the effects have run, the ref holds the rendered robots;
* `CommitKeepsRobots` — the condition: a commit changes nothing about the robots;
* `canvas_current_iff` — the canvas is given the current robots throughout a run exactly if every
  commit meets the condition;
* `registered_robot_not_shown` — the commit after a registration.
-/

namespace SwarmBase

open Framework

variable {K : Type}

namespace Page

/-- The list passed to `RobotCanvas` is the `robots` state of the same commit. -/
def ShowsRobots (p : Page K) : Prop := p.canvas = p.robots.rendered.value

/-- Unless the effects of a commit are still to run, `robotsRef` holds the robots of the last
render. -/
def FollowsRobots (p : Page K) : Prop :=
  p.effectsPending = false → p.robotsRef = p.robots.rendered.value

variable [JsArith K] {p q : Page K} {a : PageAction K}

/-- The condition on the steps of a run: what a commit renders are the robots that were rendered
before. -/
def CommitKeepsRobots (p : Page K) (a : PageAction K) : Prop :=
  a = .commit → ∀ s, p.robots.latest.value = some s → p.robots.rendered.value = some s

omit [JsArith K] in
theorem FollowsRobots.initial : FollowsRobots (Page.initial : Page K) := fun _ => rfl

theorem FollowsRobots.act (h : p.FollowsRobots) (ha : p.act a = some q) : q.FollowsRobots := by
  cases a with
  | connect | onMoveCommand | setSwarmType | setRobots | setLoading | updateEvents =>
    obtain rfl := Option.some.inj ha
    exact h
  | tick =>
    obtain ⟨t, -, rfl⟩ := Page.act_tick_iff.mp ha
    exact h
  | commit =>
    obtain ⟨⟨-, -, hpending⟩, -⟩ := Page.act_commit_iff.mp ha
    obtain rfl | rfl := Page.act_commit_cases ha
    · -- the ref is behind until the effects run
      exact fun hnone => nomatch hnone
    · exact fun _ => h hpending
  | effects =>
    obtain rfl | rfl := Page.act_effects_cases ha
    · exact fun _ => rfl
    · exact fun _ => rfl

/-- A commit passes on the robots of the commit before it. -/
theorem commit_canvas (h : p.FollowsRobots) (ha : p.act .commit = some q) (hq : q.mounted = true) :
    q.canvas = p.robots.rendered.value ∧ q.robots.rendered = p.robots.latest := by
  obtain ⟨⟨-, -, hpending⟩, -⟩ := Page.act_commit_iff.mp ha
  obtain rfl | rfl := Page.act_commit_cases ha
  · exact ⟨h hpending, rfl⟩
  · cases hq

/-- Whatever was on the screen before, a commit shows the robots if they are those of the commit
before. -/
theorem commit_showsRobots_iff (h : p.FollowsRobots) (ha : p.act .commit = some q)
    (hq : q.mounted = true) :
    q.ShowsRobots ↔ p.robots.rendered.value = p.robots.latest.value := by
  obtain ⟨hcanvas, hrobots⟩ := commit_canvas h ha hq
  unfold ShowsRobots
  rw [hcanvas, hrobots]

/-- A step that is not a commit gives the canvas nothing. -/
theorem act_frame (ha : p.act a = some q) (hne : a ≠ .commit) :
    q.canvas = p.canvas ∧ q.robots.rendered = p.robots.rendered := by
  cases a with
  | connect | onMoveCommand | setSwarmType | setRobots | setLoading | updateEvents =>
    obtain rfl := Option.some.inj ha
    exact ⟨rfl, rfl⟩
  | tick =>
    obtain ⟨t, -, rfl⟩ := Page.act_tick_iff.mp ha
    exact ⟨rfl, rfl⟩
  | commit => exact absurd rfl hne
  | effects =>
    obtain rfl | rfl := Page.act_effects_cases ha
    · exact ⟨rfl, rfl⟩
    · exact ⟨rfl, rfl⟩

/-- One step. -/
theorem showsRobots_act_iff (h : p.FollowsRobots) (hp : p.ShowsRobots) (ha : p.act a = some q) :
    q.ShowsRobots ↔ CommitKeepsRobots p a := by
  by_cases hcommit : a = .commit
  · subst hcommit
    obtain ⟨⟨hmounted, -, -⟩, rfl⟩ := Page.act_commit_iff.mp ha
    unfold CommitKeepsRobots
    cases hval : p.robots.latest.value with
    | none =>
      -- the render throws, and there is no commit
      have hthrow : p.commit = p.unmount := by
        unfold Page.commit
        rw [hval]
      rw [hthrow]
      exact iff_of_true hp nofun
    | some s =>
      have hq : p.commit.mounted = true := by
        rw [Page.commit_eq hval]
        exact hmounted
      rw [commit_showsRobots_iff h ha hq, hval]
      refine ⟨?_, fun hkeeps => hkeeps rfl s rfl⟩
      intro heq _ s' hs'
      rw [heq, hs']
  · obtain ⟨hcanvas, hrobots⟩ := act_frame ha hcommit
    unfold ShowsRobots
    rw [hcanvas, hrobots]
    exact iff_of_true hp fun heq => absurd heq hcommit

end Page

/-- **The canvas shows the current robots.** At every type of numbers: along a run of the page the
list passed to `RobotCanvas` is the `robots` state of the same commit throughout, exactly if every
commit of the run renders the robots that were rendered before it. -/
theorem canvas_current_iff [JsArith K] (ls : List (PageAction K)) (p : Page K) :
    ((pageSystem K).within Page.ShowsRobots).Run Page.initial ls p ↔
      ((pageSystem K).restrict Page.CommitKeepsRobots).Run Page.initial ls p := by
  refine System.Run.within_iff_restrict (I := Page.FollowsRobots)
    ⟨Page.FollowsRobots.initial, rfl⟩ ?_ ?_
  · exact fun p a q h ha => Page.FollowsRobots.act h ha
  · exact fun p a q h hp ha => Page.showsRobots_act_iff h hp ha

/-- A registration: the robot that was appended is rendered, and the canvas is given none. -/
theorem registered_robot_not_shown :
    ¬ ∀ (ls : List (PageAction ℝ)) (p : Page ℝ), (pageSystem ℝ).Run Page.initial ls p →
      p.ShowsRobots := by
  intro h
  have hshows := h [.connect, .commit, .effects, .setLoading true, .commit, .effects, .setRobots,
    .commit] _ (.of_runAct rfl)
  have hnil : some (RobotsState.list []) = some (.list [newRobot 0]) := hshows
  cases hnil

end SwarmBase
