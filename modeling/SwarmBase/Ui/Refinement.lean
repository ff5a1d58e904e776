import SwarmBase.Ui.Animation
import SwarmBase.Ui.Coincident
import SwarmBase.Ui.RobotList

/-!
# The page as a list of updates

All that happens to the robots is a list of updates: registrations, and ticks of the three
algorithms. Under React the page is four readings of that list. The queued updaters have read all
of it; what is rendered, `robotsRef.current` and the `robots` prop of the canvas are each behind
the one before. A tick chooses between `directSeek` and the swarm algorithms by the length of
`robotsRef.current`, so by what the list was some updates ago, and not by what its updater will run
on.

* `page_follows_updates` — every run of the page is such a list, one update for each registration
  and tick, with its readings;
* `updates_reached` — every list of updates in which the ticks choose by the current length is
  made by a run of the page.
-/

namespace SwarmBase

open Framework

variable {K : Type} {p q : Page K} {ls : List (PageAction K)} {a : PageAction K}

/-! ### Updates -/

/-- What an updater of the `robots` state does. -/
inductive RobotsUpdate (K : Type) where
  | swarm (a : SwarmAction K)
  | seek (target : Vec K)

namespace RobotsUpdate

def isRegister : RobotsUpdate K → Bool
  | .swarm .register => true
  | _ => false

def target? : RobotsUpdate K → Option (Vec K)
  | .swarm .register => none
  | .swarm (.boids t) => some t
  | .swarm (.potential t) => some t
  | .seek t => some t

def swarmType? : RobotsUpdate K → Option SwarmType
  | .swarm (.boids _) => some .boids
  | .swarm (.potential _) => some .potential
  | _ => none

/-- The update one call of the interval callback asks for, with the settings of its timer and what
it finds in the ref. -/
def ofTick (target : Vec K) (s : SwarmType) (ref : Option (RobotsState K)) : RobotsUpdate K :=
  if ref.bind RobotsState.length? = some 1 then .seek target
  else match s with
    | .boids => .swarm (.boids target)
    | .potential => .swarm (.potential target)

theorem ofTick_eq (target : Vec K) (s : SwarmType) (ref : Option (RobotsState K)) :
    (ofTick target s ref).isRegister = false ∧ (ofTick target s ref).target? = some target ∧
      ∀ s', (ofTick target s ref).swarmType? = some s' → s' = s := by
  unfold ofTick
  split_ifs
  · exact ⟨rfl, rfl, nofun⟩
  · cases s with
    | boids => exact ⟨rfl, rfl, fun s' hs' => (Option.some.inj hs').symm⟩
    | potential => exact ⟨rfl, rfl, fun s' hs' => (Option.some.inj hs').symm⟩

end RobotsUpdate

/-! ### The settings -/

/-- A target some command of a run set. -/
def TargetAsked (ls : List (PageAction K)) (t : Vec K) : Prop := .onMoveCommand t ∈ ls

/-- A swarm type that was selected in a run. The page starts with Boids. -/
def TypeAsked (ls : List (PageAction K)) (s : SwarmType) : Prop :=
  s = .boids ∨ .setSwarmType s ∈ ls

def Requested (ls : List (PageAction K)) (u : RobotsUpdate K) : Prop :=
  (∀ t, u.target? = some t → TargetAsked ls t) ∧ ∀ s, u.swarmType? = some s → TypeAsked ls s

/-- The invariant of the settings, wherever the page keeps them. -/
structure Settings (ls : List (PageAction K)) (p : Page K) : Prop where
  target_latest : ∀ t, p.target.latest.value = some t → TargetAsked ls t
  target_rendered : ∀ t, p.target.rendered.value = some t → TargetAsked ls t
  type_latest : TypeAsked ls p.swarmType.latest
  type_rendered : TypeAsked ls p.swarmType.rendered
  timer : ∀ t, p.timer = some t → TargetAsked ls t.target ∧ TypeAsked ls t.swarmType

theorem TargetAsked.concat {t : Vec K} (h : TargetAsked ls t) (a : PageAction K) :
    TargetAsked (ls ++ [a]) t :=
  List.mem_append_left _ h

theorem TypeAsked.concat {s : SwarmType} (h : TypeAsked ls s) (a : PageAction K) :
    TypeAsked (ls ++ [a]) s :=
  h.imp_right (List.mem_append_left _)

theorem Requested.concat {u : RobotsUpdate K} (h : Requested ls u) (a : PageAction K) :
    Requested (ls ++ [a]) u :=
  ⟨fun t ht => (h.1 t ht).concat a, fun s hs => (h.2 s hs).concat a⟩

theorem Settings.initial : Settings [] (Page.initial : Page K) where
  target_latest := nofun
  target_rendered := nofun
  type_latest := Or.inl rfl
  type_rendered := Or.inl rfl
  timer := nofun

theorem Settings.concat (h : Settings ls p) (a : PageAction K) : Settings (ls ++ [a]) p where
  target_latest t ht := (h.target_latest t ht).concat a
  target_rendered t ht := (h.target_rendered t ht).concat a
  type_latest := h.type_latest.concat a
  type_rendered := h.type_rendered.concat a
  timer t ht := ⟨(h.timer t ht).1.concat a, (h.timer t ht).2.concat a⟩

/-- A step that leaves the settings alone, and at most stops the timer. -/
theorem Settings.frame (h : Settings ls p) (htarget : q.target = p.target)
    (htype : q.swarmType = p.swarmType) (htimer : q.timer = p.timer ∨ q.timer = none) :
    Settings ls q where
  target_latest := by rw [htarget]; exact h.target_latest
  target_rendered := by rw [htarget]; exact h.target_rendered
  type_latest := by rw [htype]; exact h.type_latest
  type_rendered := by rw [htype]; exact h.type_rendered
  timer t ht := by
    obtain hsame | hnone := htimer
    · exact h.timer t (hsame ▸ ht)
    · exact absurd (hnone.symm.trans ht) nofun

theorem Settings.render (h : Settings ls p) : Settings ls p.render where
  target_latest := h.target_latest
  target_rendered := h.target_latest
  type_latest := h.type_latest
  type_rendered := h.type_latest
  timer := h.timer

theorem Settings.runEffects (h : Settings ls p) : Settings ls p.runEffects where
  target_latest := h.target_latest
  target_rendered := h.target_rendered
  type_latest := h.type_latest
  type_rendered := h.type_rendered
  timer t ht := by
    have htimer : (if p.deps = p.seen then p.timer
      else p.target.rendered.value.map fun t => ⟨0, t, p.swarmType.rendered⟩) = some t := ht
    split_ifs at htimer
    · exact h.timer t htimer
    · -- set up anew with the settings of the render
      obtain ⟨v, hv, rfl⟩ := Option.map_eq_some_iff.mp htimer
      exact ⟨h.target_rendered v hv, h.type_rendered⟩

theorem Settings.unmount (h : Settings ls p) : Settings ls p.unmount :=
  h.frame rfl rfl (Or.inr rfl)

theorem Settings.onMoveCommand (h : Settings ls p) (t : Vec K) :
    Settings (ls ++ [.onMoveCommand t]) (p.onMoveCommand t) := by
  have hls := h.concat (.onMoveCommand t)
  refine ⟨?_, hls.target_rendered, hls.type_latest, hls.type_rendered, hls.timer⟩
  intro t' ht'
  have hlatest : (p.onMoveCommand t).target.latest.value = some t :=
    congrArg TargetCell.value (Hook.latest_update _ _)
  obtain rfl := Option.some.inj (hlatest.symm.trans ht')
  exact List.mem_append_right _ (List.mem_singleton_self _)

theorem Settings.setSwarmType (h : Settings ls p) (s : SwarmType) :
    Settings (ls ++ [.setSwarmType s]) (p.setSwarmType s) := by
  have hls := h.concat (.setSwarmType s)
  refine ⟨hls.target_latest, hls.target_rendered, ?_, hls.type_rendered, hls.timer⟩
  have hlatest : (p.setSwarmType s).swarmType.latest = s := Hook.latest_update _ _
  rw [hlatest]
  exact Or.inr (List.mem_append_right _ (List.mem_singleton_self _))

variable [JsArith K]

/-- A tick leaves the settings of the timer alone, if it does not stop it. -/
theorem timer_tick {t t' : Timer K} (h : (p.tick t).timer = some t') :
    t'.target = t.target ∧ t'.swarmType = t.swarmType := by
  have htimer : (if 120 ≤ t.frame + 1 then none else some { t with frame := t.frame + 1 }) =
    some t' := h
  split_ifs at htimer
  obtain rfl := Option.some.inj htimer
  exact ⟨rfl, rfl⟩

theorem Settings.tick (h : Settings ls p) {t : Timer K} (ht : p.timer = some t) :
    Settings ls (p.tick t) := by
  refine ⟨h.target_latest, h.target_rendered, h.type_latest, h.type_rendered, ?_⟩
  intro t' ht'
  obtain ⟨htarget, htype⟩ := timer_tick ht'
  rw [htarget, htype]
  exact h.timer t ht

/-- **Invariant preservation.** -/
theorem Settings.act (h : Settings ls p) (ha : p.act a = some q) : Settings (ls ++ [a]) q := by
  cases a with
  | connect | setLoading | updateEvents | setRobots =>
    obtain rfl := Option.some.inj ha
    exact (h.concat _).frame rfl rfl (Or.inl rfl)
  | onMoveCommand t =>
    obtain rfl := Option.some.inj ha
    exact h.onMoveCommand t
  | setSwarmType s =>
    obtain rfl := Option.some.inj ha
    exact h.setSwarmType s
  | tick =>
    obtain ⟨t, ht, rfl⟩ := Page.act_tick_iff.mp ha
    exact (h.concat _).tick ht
  | commit =>
    obtain rfl | rfl := Page.act_commit_cases ha
    · exact (h.concat _).render
    · exact (h.concat _).unmount
  | effects =>
    obtain rfl | rfl := Page.act_effects_cases ha
    · exact (h.concat _).runEffects
    · -- the effects run before the error takes the page down
      exact (h.concat _).runEffects.unmount

/-! ### What the updates make of the robots -/

def RobotsUpdate.updater : RobotsUpdate K → RobotsState K → Option (RobotsState K)
  | .swarm a => a.updater
  | .seek t => directSeek t.x t.y

/-- What the updates make of the empty list, if none of them throws. -/
def updates (us : List (RobotsUpdate K)) : Option (RobotsState K) :=
  us.foldl (fun s u => s.bind u.updater) (some (.list []))

theorem updates_concat (us : List (RobotsUpdate K)) (u : RobotsUpdate K) :
    updates (us ++ [u]) = (updates us).bind u.updater := by
  unfold updates
  rw [List.foldl_append]
  rfl

/-- Without `directSeek` the updates never throw: they are the run of a swarm. -/
theorem updates_swarm (as : List (SwarmAction K)) :
    updates (as.map .swarm) = some (.list (swarm as)) := by
  induction as using List.reverseRecOn with
  | nil => rfl
  | append_singleton as a ih =>
    rw [List.map_append, List.map_singleton, updates_concat, ih, swarm_concat]
    exact a.updater_list (swarm as)

/-- Whether a step queues an updater of the robots. -/
def PageAction.updatesRobots (a : PageAction K) : Bool := a.isSetRobots || a.isTick

/-- The lists of updates that the steps of a run make with a ref behind them. `ref` is the part of
the updates it has read, and `settings` are those of the timer. Both change in the effects of a
render, the ref to more of the updates and the settings to some that were asked for, and in no other
step: in between every tick goes by the same. -/
inductive Delayed : List (PageAction K) → List (RobotsUpdate K) → Option (Vec K × SwarmType) →
    List (RobotsUpdate K) → Prop where
  | start : Delayed [] [] none []
  | effects {ls : List (PageAction K)} {ref ref' us : List (RobotsUpdate K)}
      {settings : Option (Vec K × SwarmType)} (settings' : Option (Vec K × SwarmType)) :
      Delayed ls ref settings us → ref <+: ref' → ref' <+: us →
        (∀ target s, settings' = some (target, s) → TargetAsked ls target ∧ TypeAsked ls s) →
        Delayed (ls ++ [.effects]) ref' settings' us
  | register {ls : List (PageAction K)} {ref us : List (RobotsUpdate K)}
      {settings : Option (Vec K × SwarmType)} :
      Delayed ls ref settings us →
        Delayed (ls ++ [.setRobots]) ref settings (us ++ [.swarm .register])
  | tick {ls : List (PageAction K)} {ref us : List (RobotsUpdate K)} {target : Vec K}
      {s : SwarmType} :
      Delayed ls ref (some (target, s)) us →
        Delayed (ls ++ [.tick]) ref (some (target, s)) (us ++ [.ofTick target s (updates ref)])
  | other {ls : List (PageAction K)} {ref us : List (RobotsUpdate K)}
      {settings : Option (Vec K × SwarmType)} {a : PageAction K} :
      Delayed ls ref settings us → a.updatesRobots = false → a ≠ .effects →
        Delayed (ls ++ [a]) ref settings us

/-- The lists of updates that are made with a ref that is up to date, while there is a list. -/
inductive Timely : List (RobotsUpdate K) → Prop where
  | start : Timely []
  | register {us : List (RobotsUpdate K)} {rs : List (Robot K)} :
      Timely us → updates us = some (.list rs) → Timely (us ++ [.swarm .register])
  | tick {us : List (RobotsUpdate K)} {rs : List (Robot K)} (target : Vec K) (s : SwarmType) :
      Timely us → updates us = some (.list rs) → Timely (us ++ [.ofTick target s (some (.list rs))])

theorem updater_eq_ofTick (t : Timer K) (ref : Option (RobotsState K)) :
    Page.updater t ref = (RobotsUpdate.ofTick t.target t.swarmType ref).updater := by
  unfold Page.updater RobotsUpdate.ofTick
  split_ifs
  · rfl
  · cases t.swarmType <;> rfl

/-! ### The readings of a page -/

/-- How far each reading of the updates has got. -/
structure Readings (K : Type) where
  canvas : List (RobotsUpdate K)
  robotsRef : List (RobotsUpdate K)
  rendered : List (RobotsUpdate K)
  latest : List (RobotsUpdate K)
  /-- The settings of the timer. -/
  settings : Option (Vec K × SwarmType)

/-- The invariant of a run: the page is the readings of a list of updates. -/
structure Logged (ls : List (PageAction K)) (g : Readings K) (p : Page K) : Prop where
  canvas : p.canvas = updates g.canvas
  robotsRef : p.robotsRef = updates g.robotsRef
  rendered : p.robots.rendered.value = updates g.rendered
  latest : p.robots.latest.value = updates g.latest
  canvas_prefix : g.canvas <+: g.robotsRef
  robotsRef_prefix : g.robotsRef <+: g.rendered
  rendered_prefix : g.rendered <+: g.latest
  timer : ∀ t, p.timer = some t → g.settings = some (t.target, t.swarmType)
  delayed : Delayed ls g.robotsRef g.settings g.latest
  steps : g.latest.map RobotsUpdate.isRegister =
    (ls.filter PageAction.updatesRobots).map PageAction.isSetRobots
  requested : ∀ u ∈ g.latest, Requested ls u

variable {g : Readings K}

theorem Logged.initial : Logged [] ⟨[], [], [], [], none⟩ (Page.initial : Page K) where
  canvas := rfl
  robotsRef := rfl
  rendered := rfl
  latest := rfl
  canvas_prefix := List.prefix_rfl
  robotsRef_prefix := List.prefix_rfl
  rendered_prefix := List.prefix_rfl
  timer := nofun
  delayed := .start
  steps := rfl
  requested := nofun

omit [JsArith K] in
theorem filter_updatesRobots_concat (ha : a.updatesRobots = false) :
    (ls ++ [a]).filter PageAction.updatesRobots = ls.filter PageAction.updatesRobots := by
  have hnone : [a].filter PageAction.updatesRobots = [] :=
    List.filter_cons_of_neg (by rw [ha]; exact Bool.false_ne_true)
  rw [List.filter_append, hnone, List.append_nil]

/-- A step that queues no updater of the robots and runs no effects. -/
theorem Logged.concat (h : Logged ls g p) (ha : a.updatesRobots = false) (hne : a ≠ .effects) :
    Logged (ls ++ [a]) g p := by
  refine { h with
    delayed := h.delayed.other ha hne
    steps := ?_
    requested := fun u hu => (h.requested u hu).concat a }
  rw [filter_updatesRobots_concat ha]
  exact h.steps

/-- A step that leaves the robots alone, and at most stops the timer. -/
theorem Logged.frame (h : Logged ls g p) (hrobots : q.robots = p.robots)
    (href : q.robotsRef = p.robotsRef) (hcanvas : q.canvas = p.canvas)
    (htimer : q.timer = p.timer ∨ q.timer = none) : Logged ls g q :=
  { h with
    canvas := hcanvas.trans h.canvas
    robotsRef := href.trans h.robotsRef
    rendered := by rw [hrobots]; exact h.rendered
    latest := by rw [hrobots]; exact h.latest
    timer := by
      intro t ht
      obtain hsame | hnone := htimer
      · exact h.timer t (hsame ▸ ht)
      · exact absurd (hnone.symm.trans ht) nofun }

/-- A step that queues one. -/
theorem Logged.update (h : Logged ls g p) {u : RobotsUpdate K} {f : RobotsCell K → RobotsCell K}
    (hrobots : q.robots = p.robots.update f)
    (hvalue : (f p.robots.latest).value = p.robots.latest.value.bind u.updater)
    (href : q.robotsRef = p.robotsRef) (hcanvas : q.canvas = p.canvas)
    (htimer : ∀ t, q.timer = some t → g.settings = some (t.target, t.swarmType))
    (hdelayed : Delayed (ls ++ [a]) g.robotsRef g.settings (g.latest ++ [u]))
    (ha : a.updatesRobots = true)
    (hregister : u.isRegister = a.isSetRobots) (hu : Requested ls u) :
    Logged (ls ++ [a]) { g with latest := g.latest ++ [u] } q where
  canvas := hcanvas.trans h.canvas
  robotsRef := href.trans h.robotsRef
  rendered := by rw [hrobots]; exact h.rendered
  -- the updater is applied to what all updaters before it lead to
  latest := by rw [hrobots, Hook.latest_update, hvalue, h.latest, updates_concat]
  canvas_prefix := h.canvas_prefix
  robotsRef_prefix := h.robotsRef_prefix
  rendered_prefix := h.rendered_prefix.trans (List.prefix_append _ _)
  timer := htimer
  delayed := hdelayed
  steps := by
    have hone : [a].filter PageAction.updatesRobots = [a] := List.filter_cons_of_pos ha
    rw [List.filter_append, hone, List.map_append, List.map_append, h.steps, List.map_singleton,
      List.map_singleton, hregister]
  requested v hv := by
    rcases List.mem_append.mp hv with hold | hnew
    · exact (h.requested v hold).concat a
    · obtain rfl := List.mem_singleton.mp hnew
      exact hu.concat a

theorem Logged.setRobots (h : Logged ls g p) :
    Logged (ls ++ [.setRobots]) { g with latest := g.latest ++ [.swarm .register] }
      p.setRobots := by
  refine h.update rfl rfl rfl rfl h.timer h.delayed.register rfl rfl ?_
  exact ⟨nofun, nofun⟩

/-- The updater of a tick goes by the ref, which is the list as it was some updates ago. -/
theorem Logged.tick (h : Logged ls g p) (hs : Settings ls p) {t : Timer K}
    (ht : p.timer = some t) :
    Logged (ls ++ [.tick])
      { g with latest := g.latest ++ [.ofTick t.target t.swarmType p.robotsRef] } (p.tick t) := by
  obtain ⟨hregister, htarget, htype⟩ := RobotsUpdate.ofTick_eq t.target t.swarmType p.robotsRef
  have hvalue : (p.robots.latest.move (Page.updater t p.robotsRef)).value =
      p.robots.latest.value.bind
        (RobotsUpdate.ofTick t.target t.swarmType p.robotsRef).updater := by
    rw [← updater_eq_ofTick]
    rfl
  have hsettings := h.timer t ht
  refine h.update rfl hvalue rfl rfl ?_ ?_ rfl hregister ⟨?_, ?_⟩
  · intro t' ht'
    obtain ⟨htarget', htype'⟩ := timer_tick ht'
    rw [htarget', htype']
    exact hsettings
  · -- the ref has read what it had read when it was last set
    have hdelayed := h.delayed
    rw [hsettings] at hdelayed ⊢
    rw [h.robotsRef]
    exact hdelayed.tick
  · intro target htarget'
    obtain rfl := Option.some.inj (htarget.symm.trans htarget')
    exact (hs.timer t ht).1
  · intro s hs'
    rw [htype s hs']
    exact (hs.timer t ht).2

/-- A render has read all updates, and shows the canvas what the ref has. -/
theorem Logged.render (h : Logged ls g p) :
    Logged ls ⟨g.robotsRef, g.robotsRef, g.latest, g.latest, g.settings⟩ p.render where
  canvas := h.robotsRef
  robotsRef := h.robotsRef
  rendered := h.latest
  latest := h.latest
  canvas_prefix := List.prefix_rfl
  robotsRef_prefix := h.robotsRef_prefix.trans h.rendered_prefix
  rendered_prefix := List.prefix_rfl
  timer := h.timer
  delayed := h.delayed
  steps := h.steps
  requested := h.requested

/-- The effects put what is rendered into the ref, and may set up the timer anew. -/
theorem Logged.runEffects (h : Logged ls g p) (hs : Settings ls p) :
    ∃ settings, Logged (ls ++ [.effects])
      ⟨g.canvas, g.rendered, g.rendered, g.latest, settings⟩ p.runEffects := by
  refine ⟨p.runEffects.timer.map fun t => (t.target, t.swarmType), ?_⟩
  -- the timer is kept or set up anew, by settings that were asked for before
  have hasked : ∀ target s, (p.runEffects.timer.map fun t => (t.target, t.swarmType)) =
      some (target, s) → TargetAsked ls target ∧ TypeAsked ls s := by
    intro target s hsettings
    obtain ⟨t, ht, heq⟩ := Option.map_eq_some_iff.mp hsettings
    obtain ⟨rfl, rfl⟩ := Prod.mk.inj heq
    exact hs.runEffects.timer t ht
  exact {
    canvas := h.canvas
    robotsRef := h.rendered
    rendered := h.rendered
    latest := h.latest
    canvas_prefix := h.canvas_prefix.trans h.robotsRef_prefix
    robotsRef_prefix := List.prefix_rfl
    rendered_prefix := h.rendered_prefix
    timer := by
      intro t ht
      rw [ht]
      rfl
    delayed := h.delayed.effects _ h.robotsRef_prefix h.rendered_prefix hasked
    steps := by
      rw [filter_updatesRobots_concat rfl]
      exact h.steps
    requested := fun u hu => (h.requested u hu).concat _ }

/-- **Invariant preservation.** -/
theorem Logged.act (h : Logged ls g p) (hs : Settings ls p) (ha : p.act a = some q) :
    ∃ g', Logged (ls ++ [a]) g' q := by
  cases a with
  | connect | onMoveCommand | setSwarmType | setLoading | updateEvents =>
    obtain rfl := Option.some.inj ha
    exact ⟨g, Logged.frame (h.concat rfl nofun) rfl rfl rfl (Or.inl rfl)⟩
  | setRobots =>
    obtain rfl := Option.some.inj ha
    exact ⟨_, h.setRobots⟩
  | tick =>
    obtain ⟨t, ht, rfl⟩ := Page.act_tick_iff.mp ha
    exact ⟨_, h.tick hs ht⟩
  | commit =>
    obtain rfl | rfl := Page.act_commit_cases ha
    · exact ⟨_, Logged.render (h.concat rfl nofun)⟩
    · exact ⟨g, Logged.frame (h.concat rfl nofun) rfl rfl rfl (Or.inr rfl)⟩
  | effects =>
    obtain ⟨settings, hcaught⟩ := h.runEffects hs
    obtain rfl | rfl := Page.act_effects_cases ha
    · exact ⟨_, hcaught⟩
    · -- the page goes down after its effects
      exact ⟨_, hcaught.frame rfl rfl rfl (Or.inr rfl)⟩

/-- **The page is a list of updates.** At every type of numbers and for every run of the page, with
whatever registrations, commands, swarm types, ticks, renders and errors: there is a list of
updates, one for each registration and tick and in their order, of which the canvas has read a part,
`robotsRef.current` has read that and more, what is rendered more again, and the queued updaters
all of it. Each tick went by what the ref had read then, which only grows, and by settings of the
timer that the run asked for; both change in the effects of the run only, so they were the same for
all ticks between two effects. -/
theorem page_follows_updates (hrun : (pageSystem K).Run Page.initial ls p) :
    ∃ (shown ref rendered us : List (RobotsUpdate K)) (settings : Option (Vec K × SwarmType)),
      (p.canvas = updates shown ∧ p.robotsRef = updates ref ∧
        p.robots.rendered.value = updates rendered ∧ p.robots.latest.value = updates us) ∧
      (shown <+: ref ∧ ref <+: rendered ∧ rendered <+: us) ∧
      us.map RobotsUpdate.isRegister =
        (ls.filter PageAction.updatesRobots).map PageAction.isSetRobots ∧
      Delayed ls ref settings us ∧ ∀ u ∈ us, Requested ls u := by
  have h : Settings ls p ∧ ∃ g, Logged ls g p := by
    refine hrun.induction (P := fun ls p => Settings ls p ∧ ∃ g, Logged ls g p) ?_ ?_
    · exact ⟨.initial, _, .initial⟩
    · rintro ls p a q - ⟨hs, g, hg⟩ ha
      exact ⟨hs.act ha, hg.act hs ha⟩
  obtain ⟨-, g, hg⟩ := h
  exact ⟨g.canvas, g.robotsRef, g.rendered, g.latest, g.settings,
    ⟨hg.canvas, hg.robotsRef, hg.rendered, hg.latest⟩,
    ⟨hg.canvas_prefix, hg.robotsRef_prefix, hg.rendered_prefix⟩, hg.steps, hg.delayed,
    hg.requested⟩

/-- A robot is registered while the ticks of another go on. -/
theorem page_follows_updates_two :
    let ls : List (PageAction ℝ) :=
      [.setRobots, .onMoveCommand ⟨3, 4⟩, .commit, .effects, .setRobots, .tick]
    ∃ (p : Page ℝ) (ref us : List (RobotsUpdate ℝ)) (settings : Option (Vec ℝ × SwarmType)),
      (pageSystem ℝ).Run Page.initial ls p ∧ p.robotsRef = updates ref ∧
        p.robots.latest.value = updates us ∧
        us.map RobotsUpdate.isRegister = [true, true, false] ∧ Delayed ls ref settings us := by
  intro ls
  have hrun : (pageSystem ℝ).Run Page.initial ls _ := .of_runAct rfl
  obtain ⟨_, ref, _, us, settings, ⟨-, href, -, hus⟩, -, hsteps, hdelayed, -⟩ :=
    page_follows_updates hrun
  exact ⟨_, ref, us, settings, hrun, href, hus, hsteps, hdelayed⟩

/-! ### From updates to a run -/

variable {us : List (RobotsUpdate K)}

/-- Where a run of updates goes on: the page is up, and no effects are pending. -/
structure Ready (us : List (RobotsUpdate K)) (p : Page K) : Prop where
  latest : p.robots.latest.value = updates us
  robotsRef : ∃ rs, p.robotsRef = some (.list rs)
  seen_le : p.seen.target ≤ p.target.latest.sets
  effectsPending : p.effectsPending = false
  mounted : p.mounted = true

theorem Ready.initial : Ready [] (Page.initial : Page K) where
  latest := rfl
  robotsRef := ⟨[], rfl⟩
  seen_le := Nat.le_refl _
  effectsPending := rfl
  mounted := rfl

theorem Ready.setRobots (h : Ready us p) : Ready (us ++ [.swarm .register]) p.setRobots where
  latest := by
    have hlatest : p.setRobots.robots.latest = p.robots.latest.append := Hook.latest_update _ _
    rw [hlatest, updates_concat, ← h.latest]
    rfl
  robotsRef := h.robotsRef
  seen_le := h.seen_le
  effectsPending := h.effectsPending
  mounted := h.mounted

/-- A new command and its render bring the ref up to date. -/
theorem Ready.command {rs : List (Robot K)} (h : Ready us p) (hrs : updates us = some (.list rs))
    (target : Vec K) (s : SwarmType) :
    ∃ q, (pageSystem K).Run p [.setSwarmType s, .onMoveCommand target, .commit, .effects] q ∧
      Ready us q ∧ q.robotsRef = some (.list rs) ∧ q.timer = some ⟨0, target, s⟩ := by
  obtain ⟨rs₀, href⟩ := h.robotsRef
  obtain ⟨p₁, hp₁⟩ : ∃ p₁, (p.setSwarmType s).onMoveCommand target = p₁ := ⟨_, rfl⟩
  have hrun₁ : (pageSystem K).Run p [.setSwarmType s, .onMoveCommand target] p₁ :=
    .of_runAct (congrArg some hp₁)
  have htarget : p₁.target.latest = ⟨some target, p.target.latest.sets + 1⟩ := by
    rw [← hp₁]
    exact Hook.latest_update _ _
  have htype : p₁.swarmType.latest = s := by
    rw [← hp₁]
    exact Hook.latest_update _ _
  have hlatest : p₁.robots.latest.value = some (.list rs) := by
    rw [← hp₁, ← hrs]
    exact h.latest
  -- the render goes through, and so do its effects
  have hupdates : p₁.hasUpdates = true := by
    rw [← hp₁]
    simp [Page.hasUpdates, Page.onMoveCommand, Page.setSwarmType, Hook.update]
  have hcommit : p₁.act .commit = some p₁.render := by
    refine Page.act_commit_iff.mpr ⟨⟨?_, hupdates, ?_⟩, Page.commit_eq hlatest⟩
    · rw [← hp₁]
      exact h.mounted
    · rw [← hp₁]
      exact h.effectsPending
  have hcanvas : p₁.render.canvas = some (.list rs₀) := by
    rw [← hp₁]
    exact href
  have heffects : p₁.render.act .effects = some p₁.render.runEffects :=
    Page.act_effects_iff.mpr ⟨rfl, Page.effects_eq hcanvas⟩
  -- the target is new, so the timer is set up
  have hdeps : p₁.render.deps.target = p.target.latest.sets + 1 := congrArg TargetCell.sets htarget
  have hseen : p₁.render.deps ≠ p₁.render.seen := by
    intro heq
    have hold : p₁.render.seen.target = p.seen.target := by
      rw [← hp₁]
      rfl
    have hle := h.seen_le
    rw [← hold, ← heq, hdeps] at hle
    exact absurd hle (Nat.not_succ_le_self _)
  refine ⟨p₁.render.runEffects, (hrun₁.concat hcommit).concat heffects, ?_, hlatest, ?_⟩
  · refine ⟨hlatest.trans hrs.symm, ⟨rs, hlatest⟩, Nat.le_refl _, rfl, ?_⟩
    show p₁.mounted = true
    rw [← hp₁]
    exact h.mounted
  · show (if p₁.render.deps = p₁.render.seen then _ else p₁.target.latest.value.map fun t =>
      Timer.mk 0 t p₁.swarmType.latest) = _
    rw [if_neg hseen, htarget, htype]
    rfl

theorem Ready.tick {rs : List (Robot K)} (h : Ready us p) (hrs : updates us = some (.list rs))
    (target : Vec K) (s : SwarmType) :
    ∃ ls q, (pageSystem K).Run p ls q ∧ Ready (us ++ [.ofTick target s (some (.list rs))]) q := by
  obtain ⟨q, hrun, hready, href, htimer⟩ := h.command hrs target s
  have htick : q.act .tick = some (q.tick ⟨0, target, s⟩) :=
    Page.act_tick_iff.mpr ⟨_, htimer, rfl⟩
  refine ⟨_, _, hrun.concat htick, ?_⟩
  refine ⟨?_, hready.robotsRef, hready.seen_le, hready.effectsPending, hready.mounted⟩
  rw [Page.latest_tick, updater_eq_ofTick, href, updates_concat, ← hready.latest]
  rfl

theorem Timely.exists_run (h : Timely us) :
    ∃ ls p, (pageSystem K).Run Page.initial ls p ∧ Ready us p := by
  induction h with
  | start => exact ⟨[], Page.initial, .nil _, .initial⟩
  | register _ _ ih =>
    obtain ⟨ls, p, hrun, hready⟩ := ih
    have hstep : p.act .setRobots = some p.setRobots := rfl
    exact ⟨_, _, hrun.concat hstep, hready.setRobots⟩
  | tick target s _ hrs ih =>
    -- the settings are sent for, and the page is given the time to render them
    obtain ⟨ls, p, hrun, hready⟩ := ih
    obtain ⟨ks, q, hmore, hnext⟩ := hready.tick hrs target s
    exact ⟨ls ++ ks, q, hrun.append hmore, hnext⟩

/-- **Every timely list of updates is made.** At every type of numbers: for every list of
registrations and ticks with any targets and swarm types, in which each tick is that of `directSeek`
exactly if there is one robot at that point, and nothing follows an update that threw or that
replaced the list by a robot, there is a run of the page after which its updaters have made of the
robots what these updates make of them. -/
theorem updates_reached (h : Timely us) :
    ∃ ls p, (pageSystem K).Run Page.initial ls p ∧ p.robots.latest.value = updates us := by
  obtain ⟨ls, p, hrun, hready⟩ := h.exists_run
  exact ⟨ls, p, hrun, hready.latest⟩

/-- Two robots, and a tick of each swarm algorithm. -/
theorem updates_reached_two : ∃ ls p, (pageSystem ℝ).Run Page.initial ls p ∧
    p.robots.latest.value = updates
      ([.register, .register, .boids ⟨3, 4⟩, .potential ⟨5, 6⟩].map .swarm) := by
  have hrobots : Timely ([.swarm .register, .swarm .register] : List (RobotsUpdate ℝ)) :=
    (Timely.start.register rfl).register rfl
  exact updates_reached ((hrobots.tick ⟨3, 4⟩ .boids rfl).tick ⟨5, 6⟩ .potential rfl)

/-! ### Swarms -/

/-- A run of a swarm whose ticks never find exactly one robot. -/
theorem timely_swarm {as : List (SwarmAction K)}
    (h : ∀ pre a post, as = pre ++ a :: post → a ≠ .register → (swarm pre).length ≠ 1) :
    Timely (as.map .swarm) := by
  -- the list before a tick is that of the swarm so far
  induction as using List.reverseRecOn with
  | nil => exact .start
  | append_singleton as a ih =>
    have htimely : Timely (as.map .swarm) := by
      refine ih ?_
      rintro pre b post rfl
      exact h pre b (post ++ [a]) (by simp)
    have hrs := updates_swarm as
    have hlast := h as a [] rfl
    rw [List.map_append, List.map_singleton]
    cases a with
    | register => exact htimely.register hrs
    | boids t =>
      have hmany : RobotsState.length? (.list (swarm as)) ≠ some 1 :=
        fun hone => hlast nofun (Option.some.inj hone)
      have hupdate : RobotsUpdate.ofTick t .boids (some (.list (swarm as))) = .swarm (.boids t) :=
        if_neg hmany
      rw [← hupdate]
      exact htimely.tick t .boids hrs
    | potential t =>
      have hmany : RobotsState.length? (.list (swarm as)) ≠ some 1 :=
        fun hone => hlast nofun (Option.some.inj hone)
      have hupdate : RobotsUpdate.ofTick t .potential (some (.list (swarm as))) =
          .swarm (.potential t) := if_neg hmany
      rw [← hupdate]
      exact htimely.tick t .potential hrs

/-- What is proved of the runs of a swarm is about pages, as long as no tick finds exactly one
robot. -/
theorem swarm_on_page {as : List (SwarmAction K)}
    (h : ∀ pre a post, as = pre ++ a :: post → a ≠ .register → (swarm pre).length ≠ 1) :
    ∃ ls p, (pageSystem K).Run Page.initial ls p ∧
      p.robots.latest.value = some (.list (swarm as)) := by
  obtain ⟨ls, p, hrun, hready⟩ := (timely_swarm h).exists_run
  exact ⟨ls, p, hrun, hready.latest.trans (updates_swarm as)⟩

end SwarmBase
