import SwarmBase.Framework.Hook
import SwarmBase.Framework.System
import SwarmBase.Ui.EventHandler
import SwarmBase.Ui.Movement

/-!
# The page as a state machine

`page.tsx` under React: the state hooks, the refs, the animation timer, and the steps in which
they change. A step is one stretch of JavaScript that nothing interrupts:

* a state update asked for by an event handler, a promise or a subscription;
* `tick`: one call of the interval callback;
* `commit`: React renders with all queued updates and commits the result;
* `effects`: React runs the effects of the last commit.

Between a commit and its effects anything but another commit can happen, so a tick can find a
`robotsRef.current` that is older than what is on the screen, which in turn can be older than the
list the updater of the tick runs on.
-/

namespace SwarmBase

open Framework

/-! ### State -/

/-- The `robots` state. It has no value if an updater threw. The two counters stand for the
identity of the value, since every updater returns a new object: how many of the updaters that
made it moved the robots, and how many appended one. -/
structure RobotsCell (K : Type) where
  value : Option (RobotsState K)
  frames : ℕ
  appends : ℕ

/-- The `target` state, with the number of times it was set for its identity. -/
structure TargetCell (K : Type) where
  value : Option (Vec K)
  sets : ℕ

/-- What the handlers of a render see of it. -/
structure Closure (K : Type) where
  /-- Both `api` and `signer` are set. -/
  ready : Bool
  robots : Option (RobotsState K)

/-- The interval of the animation effect: its frame counter, and the `target` and `swarmType` of
the render it was set up in. -/
structure Timer (K : Type) where
  frame : ℕ
  target : Vec K
  swarmType : SwarmType

/-- The dependencies `[robots, target, swarmType]` of the animation effect, by identity. -/
structure Deps where
  frames : ℕ
  appends : ℕ
  target : ℕ
  swarmType : SwarmType
  deriving DecidableEq

structure Page (K : Type) where
  ready : Hook Bool
  robots : Hook (RobotsCell K)
  loading : Hook Bool
  events : Hook (List LogLine)
  swarmType : Hook SwarmType
  target : Hook (TargetCell K)
  robotsRef : Option (RobotsState K)
  /-- The `robots` prop of `RobotCanvas`: `robotsRef.current` at the time of the last render. -/
  canvas : Option (RobotsState K)
  /-- The click handler `RobotCanvas` calls: that of the last render whose effects have run. -/
  onClickRef : Closure K
  timer : Option (Timer K)
  /-- The dependencies the animation effect last ran with. -/
  seen : Deps
  /-- The effects of the last commit have not run yet. -/
  effectsPending : Bool
  mounted : Bool

variable {K : Type}

def RobotsState.length? : RobotsState K → Option ℕ
  | .list rs => some rs.length
  | .robot _ => none

def RobotsCell.move (f : RobotsState K → Option (RobotsState K)) (c : RobotsCell K) :
    RobotsCell K :=
  { c with value := c.value.bind f, frames := c.frames + 1 }

/-- The updater of `setRobots` in `registerRobot`. -/
def RobotsCell.append [JsArith K] (c : RobotsCell K) : RobotsCell K :=
  { c with value := c.value.bind appendRobot, appends := c.appends + 1 }

/-- The page after its first render and effects. -/
def Page.initial : Page K where
  ready := .init false
  robots := .init ⟨some (.list []), 0, 0⟩
  loading := .init false
  events := .init []
  swarmType := .init .boids
  target := .init ⟨none, 0⟩
  robotsRef := some (.list [])
  canvas := some (.list [])
  onClickRef := ⟨false, some (.list [])⟩
  timer := none
  seen := ⟨0, 0, 0, .boids⟩
  effectsPending := false
  mounted := true

namespace Page

/-! ### State updates -/

def updateEvents (line : LogLine) (p : Page K) : Page K :=
  { p with events := p.events.update (· ++ [line]) }

def setLoading (b : Bool) (p : Page K) : Page K := { p with loading := p.loading.set b }

def setSwarmType (t : SwarmType) (p : Page K) : Page K := { p with swarmType := p.swarmType.set t }

/-- `onMoveCommand` with a decoded target. -/
def onMoveCommand (t : Vec K) (p : Page K) : Page K :=
  { p with target := p.target.update fun c => ⟨some t, c.sets + 1⟩ }

/-- The page's reaction to `initPolkadot`. -/
def connect (p : Page K) : Page K :=
  { p with ready := p.ready.set true }.updateEvents .connected

/-- What the handlers of the current render see. -/
def closure (p : Page K) : Closure K := ⟨p.ready.rendered, p.robots.rendered.value⟩

/-- The dependencies of the animation effect in the current render. -/
def deps (p : Page K) : Deps where
  frames := p.robots.rendered.frames
  appends := p.robots.rendered.appends
  target := p.target.rendered.sets
  swarmType := p.swarmType.rendered

def hasUpdates (p : Page K) : Bool :=
  !(p.ready.queue.isEmpty && p.robots.queue.isEmpty && p.loading.queue.isEmpty &&
    p.events.queue.isEmpty && p.swarmType.queue.isEmpty && p.target.queue.isEmpty)

/-- An error in a render or an effect takes the page down, with its interval. -/
def unmount (p : Page K) : Page K :=
  { p with timer := none, effectsPending := false, mounted := false }

/-- The state update at the end of `registerRobot`. -/
def setRobots [JsArith K] (p : Page K) : Page K :=
  { p with robots := p.robots.update RobotsCell.append }

/-! ### The animation timer -/

/-- The updater one call of the interval callback asks for: `directSeek` if the list in the ref
has length one, else the algorithm of the timer's `swarmType`. -/
def updater [JsArith K] (t : Timer K) (robotsRef : Option (RobotsState K)) :
    RobotsState K → Option (RobotsState K) :=
  if robotsRef.bind RobotsState.length? = some 1 then directSeek t.target.x t.target.y
  else match t.swarmType with
    | .boids => moveToBoids t.target.x t.target.y
    | .potential => moveToPotentialField t.target.x t.target.y

/-- Unless it is `directSeek`, the updater maps over the list and leaves the ids alone. -/
theorem updater_eq_map [JsArith K] (t : Timer K) {robotsRef : Option (RobotsState K)}
    (h : robotsRef.bind RobotsState.length? ≠ some 1) (rs : List (Robot K)) :
    ∃ move : Robot K → Robot K, (∀ r, (move r).id = r.id) ∧
      updater t robotsRef (.list rs) = some (.list (rs.map move)) := by
  unfold updater
  rw [if_neg h]
  cases t.swarmType with
  | boids => exact ⟨Boids.move t.target.x t.target.y rs, fun _ => rfl, rfl⟩
  | potential => exact ⟨PotentialField.move t.target.x t.target.y rs, fun _ => rfl, rfl⟩

/-- No updater can do with a robot in place of the list. -/
theorem updater_robot [JsArith K] (t : Timer K) (robotsRef : Option (RobotsState K))
    (r : Robot K) : updater t robotsRef (.robot r) = none := by
  unfold updater
  split_ifs
  · rfl
  · cases t.swarmType <;> rfl

/-- The interval callback. -/
def tick [JsArith K] (t : Timer K) (p : Page K) : Page K :=
  -- the updater runs later, on the list it then finds
  let frame := t.frame + 1
  { p with
    robots := p.robots.update (RobotsCell.move (updater t p.robotsRef))
    timer := if 120 ≤ frame then none else some { t with frame := frame } }

theorem latest_tick [JsArith K] (t : Timer K) (p : Page K) :
    (p.tick t).robots.latest = p.robots.latest.move (updater t p.robotsRef) :=
  Hook.latest_update _ _

/-! ### React -/

/-- A render that takes up all queued updates, committed. -/
def render (p : Page K) : Page K :=
  { p with
    ready := p.ready.flush
    robots := p.robots.flush
    loading := p.loading.flush
    events := p.events.flush
    swarmType := p.swarmType.flush
    target := p.target.flush
    -- `robotsRef.current` is still the list of an earlier render
    canvas := p.robotsRef
    effectsPending := true }

/-- Render and commit. If an updater threw, the render throws. -/
def commit (p : Page K) : Page K :=
  match p.robots.latest.value with
  | none => p.unmount
  | some _ => p.render

/-- The effects of a commit. The animation effect is set up anew, frame counter included, if one
of its dependencies changed. -/
def runEffects (p : Page K) : Page K :=
  { p with
    robotsRef := p.robots.rendered.value
    onClickRef := p.closure
    timer :=
      if p.deps = p.seen then p.timer
      else p.target.rendered.value.map fun t => ⟨0, t, p.swarmType.rendered⟩
    seen := p.deps
    effectsPending := false }

/-- `RobotCanvas` iterates over its `robots` in an effect, and throws if they are not a list. -/
def effects (p : Page K) : Page K :=
  match p.canvas with
  | some (.list _) => p.runEffects
  -- its effect belongs to the same commit, so the page goes down with it
  | _ => p.runEffects.unmount

theorem commit_cases (p : Page K) : p.commit = p.render ∨ p.commit = p.unmount := by
  unfold commit
  split
  · exact Or.inr rfl
  · exact Or.inl rfl

theorem effects_cases (p : Page K) :
    p.effects = p.runEffects ∨ p.effects = p.runEffects.unmount := by
  unfold effects
  split
  · exact Or.inl rfl
  · exact Or.inr rfl

theorem commit_eq {p : Page K} {s : RobotsState K} (h : p.robots.latest.value = some s) :
    p.commit = p.render := by
  unfold commit
  rw [h]

theorem effects_eq {p : Page K} {rs : List (Robot K)} (h : p.canvas = some (.list rs)) :
    p.effects = p.runEffects := by
  unfold effects
  rw [h]

end Page

/-! ### Steps -/

/-- The steps of the page. -/
inductive PageAction (K : Type) where
  | connect
  | onMoveCommand (t : Vec K)
  | setSwarmType (t : SwarmType)
  | setRobots
  | setLoading (b : Bool)
  | updateEvents (line : LogLine)
  | tick
  | commit
  | effects

variable [JsArith K]

/-- The page after a step, if the step can be made. -/
def Page.act (p : Page K) : PageAction K → Option (Page K)
  | .connect => some p.connect
  | .onMoveCommand t => some (p.onMoveCommand t)
  | .setSwarmType t => some (p.setSwarmType t)
  | .setRobots => some p.setRobots
  | .setLoading b => some (p.setLoading b)
  | .updateEvents line => some (p.updateEvents line)
  | .tick => p.timer.map fun t => p.tick t
  | .commit => if p.mounted && p.hasUpdates && !p.effectsPending then some p.commit else none
  | .effects => if p.effectsPending then some p.effects else none

theorem Page.act_tick_iff {p q : Page K} :
    p.act .tick = some q ↔ ∃ t, p.timer = some t ∧ p.tick t = q :=
  Option.map_eq_some_iff

theorem Page.act_commit_iff {p q : Page K} :
    p.act .commit = some q ↔
      (p.mounted = true ∧ p.hasUpdates = true ∧ p.effectsPending = false) ∧ p.commit = q := by
  unfold Page.act
  simp only [Option.ite_none_right_eq_some, Option.some.injEq, Bool.and_eq_true, Bool.not_eq_true',
    and_assoc]

theorem Page.act_effects_iff {p q : Page K} :
    p.act .effects = some q ↔ p.effectsPending = true ∧ p.effects = q := by
  unfold Page.act
  simp only [Option.ite_none_right_eq_some, Option.some.injEq]

/-- A commit is a render, unless the render throws. -/
theorem Page.act_commit_cases {p q : Page K} (ha : p.act .commit = some q) :
    q = p.render ∨ q = p.unmount := by
  obtain ⟨-, rfl⟩ := Page.act_commit_iff.mp ha
  exact Page.commit_cases p

/-- The effects run, and the page goes down with them if one of them throws. -/
theorem Page.act_effects_cases {p q : Page K} (ha : p.act .effects = some q) :
    q = p.runEffects ∨ q = p.runEffects.unmount := by
  obtain ⟨-, rfl⟩ := Page.act_effects_iff.mp ha
  exact Page.effects_cases p

/-- What React does leaves the updated values alone: the updates are taken up, and no others are
made. -/
theorem Page.latest_of_react {a : PageAction K} {p q : Page K} (ha : p.act a = some q)
    (hreact : a = .commit ∨ a = .effects) :
    q.robots.latest = p.robots.latest ∧ q.loading.latest = p.loading.latest := by
  obtain rfl | rfl := hreact
  · obtain rfl | rfl := Page.act_commit_cases ha
    · exact ⟨rfl, rfl⟩
    · exact ⟨rfl, rfl⟩
  · obtain rfl | rfl := Page.act_effects_cases ha
    · exact ⟨rfl, rfl⟩
    · exact ⟨rfl, rfl⟩

/-- What a step does to the robots after all queued updates. -/
theorem Page.latest_cases {a : PageAction K} {p q : Page K} (ha : p.act a = some q) :
    q.robots.latest = p.robots.latest ∨ q.robots.latest = p.robots.latest.append ∨
      ∃ t, q.robots.latest = p.robots.latest.move (Page.updater t p.robotsRef) := by
  cases a with
  | connect | onMoveCommand | setSwarmType | setLoading | updateEvents =>
    obtain rfl := Option.some.inj ha
    exact Or.inl rfl
  | setRobots =>
    obtain rfl := Option.some.inj ha
    exact Or.inr (Or.inl (Hook.latest_update _ _))
  | tick =>
    obtain ⟨t, -, rfl⟩ := Page.act_tick_iff.mp ha
    exact Or.inr (Or.inr ⟨t, Page.latest_tick t p⟩)
  | commit => exact Or.inl (Page.latest_of_react ha (Or.inl rfl)).1
  | effects => exact Or.inl (Page.latest_of_react ha (Or.inr rfl)).1

/-- The page from its first render on. -/
def pageSystem (K : Type) [JsArith K] : System (Page K) (PageAction K) :=
  .ofAct (fun p => p = Page.initial) Page.act

end SwarmBase
