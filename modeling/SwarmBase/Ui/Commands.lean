import SwarmBase.Framework.Replay
import SwarmBase.Ui.RobotList

/-!
# From pulled commands to movement

The chain hands out commands in order, and the `system.events` handler asks for a new target for
each one that was pulled. The page has one target. React takes up all targets asked for since the
last render at once, of which the last one is left, and the animation effect then replaces the
timer whether or not it has ticked.

`Commanded` is the page with a record of the commands pulled so far and of the targets that ticks
moved the robots toward. Targets are numbered by the commands they were asked for by: the one of
`pulled[i]` has the number `i + 1`, and the timer has the one the effect has seen last.

* `Numbered` — what holds of the numbers in every run;
* `only_last_of_block` — of several commands pulled in one block, no tick ever moves the robots
  toward any but the last;
* `commands_moved_toward` — all locations pulled are moved toward, in order (`MovedInOrder`),
  exactly if the order of the steps gives each of them a turn (`GetsTurn`);
* `exists_turn` — as long as the robots are a list, every batch can be given one;
* `second_of_two_pulled` — two locations pulled in one block.
-/

namespace SwarmBase

open Framework

/-! ### One batch of events -/

/-- An event of a block: one of the pallet, or one of another pallet. -/
inductive BlockEvent where
  | swarm (e : Swarm.Event Runtime)
  | other (record : EventRecord) (h : record.sectionName ≠ "swarmRobotPallet")

namespace BlockEvent

def record : BlockEvent → EventRecord
  | .swarm e => eventRecord e
  | .other r _ => r

/-- The command of a `CommandPulled` event. -/
def pulled? : BlockEvent → Option (Command Runtime)
  | .swarm (.commandPulled _ c _) => some c
  | _ => none

/-- What the handler asks for on an event. -/
def updates : BlockEvent → List HandlerUpdate
  | .swarm (.commandPulled r c _) =>
    [.updateEvents (.moving r.toNat (decodedTarget c).x (decodedTarget c).y),
      .setTarget (decodedTarget c)]
  | _ => []

theorem handleRecord_record (e : BlockEvent) (us : List HandlerUpdate) :
    handleRecord e.record us = .ok () (us ++ e.updates) := by
  match e with
  | .swarm (.commandEnqueued c) =>
    show EStateM.Result.ok () us = .ok () (us ++ [])
    rw [List.append_nil]
  | .swarm (.commandPulled r c l) =>
    have hrecord : handleRecord (BlockEvent.swarm (.commandPulled r c l)).record = (do
        let coords ← guessTarget (commandToHuman c)
        request (.updateEvents (.moving r.toNat coords.x coords.y))
        onMoveCommand coords.x coords.y) := rfl
    rw [hrecord, guessTarget_commandToHuman]
    show EStateM.Result.ok () (us ++ [_] ++ [_]) = _
    rw [List.append_assoc]
    rfl
  | .other r h =>
    have hskip : ¬ (r.sectionName = "swarmRobotPallet" ∧ r.methodName = "CommandPulled") :=
      fun hboth => h hboth.1
    unfold handleRecord record
    rw [if_neg hskip]
    show EStateM.Result.ok () us = .ok () (us ++ [])
    rw [List.append_nil]

theorem handleRecords_batch (batch : List BlockEvent) (us : List HandlerUpdate) :
    handleRecords (batch.map record) us = .ok () (us ++ batch.flatMap updates) := by
  induction batch generalizing us with
  | nil =>
    show EStateM.Result.ok () us = .ok () (us ++ [])
    rw [List.append_nil]
  | cons e batch ih =>
    have hcons : handleRecords ((e :: batch).map record) us =
        EStateM.bind (handleRecord e.record) (fun _ => handleRecords (batch.map record)) us := rfl
    rw [hcons]
    unfold EStateM.bind
    rw [handleRecord_record]
    dsimp only
    rw [ih, List.flatMap_cons, List.append_assoc]

/-- The handler does not throw on the events of a block. -/
theorem handlerUpdates_batch (batch : List BlockEvent) :
    handlerUpdates (batch.map record) = batch.flatMap updates := by
  unfold handlerUpdates
  rw [handleRecords_batch]
  rfl

end BlockEvent

/-! ### The page and what was pulled -/

section Commanded

variable {K : Type} (num : JsNumber → K)

/-- A state update the handler asks for, on a page whose numbers are those of `K`. -/
def HandlerUpdate.apply (p : Page K) : HandlerUpdate → Page K
  | .updateEvents line => p.updateEvents line
  | .setTarget t => p.onMoveCommand ⟨num t.x, num t.y⟩

/-- The `system.events` callback. Nothing interrupts it. -/
def Page.handle (p : Page K) (records : List EventRecord) : Page K :=
  (handlerUpdates records).foldl (HandlerUpdate.apply num) p

/-- Where a command says the robots should go. -/
def location (c : Coordinate) : Vec K := ⟨num (.val c.x.toNat), num (.val c.y.toNat)⟩

/-- Where the page is told to move the robots for a command. -/
def assigned (cmd : Command Runtime) : Vec K :=
  ⟨num (decodedTarget cmd).x, num (decodedTarget cmd).y⟩

/-- The page, with the commands pulled so far and what the ticks moved the robots toward: the
number of the target and the target itself. -/
structure Commanded (K : Type) where
  page : Page K
  pulled : List (Command Runtime)
  moved : List (ℕ × Vec K)

inductive CommandedAction (K : Type) where
  | events (batch : List BlockEvent)
  | page (a : PageAction K)

variable [JsArith K]

def Commanded.act (s : Commanded K) : CommandedAction K → Option (Commanded K)
  | .events batch => some
    { s with
      page := s.page.handle num (batch.map BlockEvent.record)
      pulled := s.pulled ++ batch.filterMap BlockEvent.pulled? }
  -- only the handler asks for a target
  | .page (.onMoveCommand _) => none
  | .page .tick => s.page.timer.map fun t =>
    { s with
      page := s.page.tick t
      moved := s.moved ++ [(s.page.seen.target, t.target)] }
  | .page a => (s.page.act a).map fun q => { s with page := q }

def commandedSystem : System (Commanded K) (CommandedAction K) :=
  .ofAct (fun s => s = ⟨Page.initial, [], []⟩) (Commanded.act num)

/-- The commands that a step delivers the events of. -/
def CommandedAction.pulls : CommandedAction K → List (Command Runtime)
  | .events batch => batch.filterMap BlockEvent.pulled?
  | .page _ => []

/-- The commands pulled along a run. -/
def pulledAlong (ls : List (CommandedAction K)) : List (Command Runtime) :=
  ls.flatMap CommandedAction.pulls

/-- The page committed last when `k` commands had been pulled. -/
def CommittedAt (k : ℕ) (ls : List (CommandedAction K)) : Prop :=
  ∃ us vs, ls = us ++ .page .commit :: vs ∧ (pulledAlong us).length = k ∧ .page .commit ∉ vs

/-- The effects that ran last are those of a commit made when `k` commands had been pulled. -/
def TakenUpAt (k : ℕ) (ls : List (CommandedAction K)) : Prop :=
  ∃ us vs, ls = us ++ .page .effects :: vs ∧ CommittedAt k us ∧ .page .effects ∉ vs

/-- The command with index `i` gets its turn: the page commits after it was pulled and before any
later one is, the effects of this commit run, and the interval ticks before any other effects. -/
def GetsTurn (ls : List (CommandedAction K)) (i : ℕ) : Prop :=
  ∃ us vs, ls = us ++ .page .tick :: vs ∧ TakenUpAt (i + 1) us

section Concat

variable {ls : List (CommandedAction K)} {a : CommandedAction K} {k : ℕ}

omit [JsArith K]

/-- What was so before the last `b` stays so with any other step. -/
theorem exists_last_concat {α : Type} {P : List α → Prop} {xs : List α} {b x : α}
    (h : ∃ us vs, xs = us ++ b :: vs ∧ P us ∧ b ∉ vs) (hne : x ≠ b) :
    ∃ us vs, xs ++ [x] = us ++ b :: vs ∧ P us ∧ b ∉ vs := by
  obtain ⟨us, vs, rfl, hus, hvs⟩ := h
  refine ⟨us, vs ++ [x], List.append_assoc _ _ _, hus, fun hmem => ?_⟩
  rcases List.mem_append.mp hmem with hmem | hmem
  · exact hvs hmem
  · exact hne (List.mem_singleton.mp hmem).symm

theorem CommittedAt.concat (h : CommittedAt k ls) (hne : a ≠ .page .commit) :
    CommittedAt k (ls ++ [a]) :=
  exists_last_concat h hne

theorem TakenUpAt.concat (h : TakenUpAt k ls) (hne : a ≠ .page .effects) :
    TakenUpAt k (ls ++ [a]) :=
  exists_last_concat h hne

theorem GetsTurn.concat {i : ℕ} (h : GetsTurn ls i) (a : CommandedAction K) :
    GetsTurn (ls ++ [a]) i := by
  obtain ⟨us, vs, rfl, htaken⟩ := h
  exact ⟨us, vs ++ [a], List.append_assoc _ _ _, htaken⟩

end Concat

/-! ### The target -/

/-- The `target` state after the handler has asked for the targets of some commands. -/
def targetCell (cmds : List (Command Runtime)) : TargetCell K :=
  ⟨cmds.getLast?.map (assigned num), cmds.length⟩

variable {num} {p q : Page K} {s s' : Commanded K}

omit [JsArith K]

theorem targetCell_concat (cmds : List (Command Runtime)) (cmd : Command Runtime) :
    targetCell num (cmds ++ [cmd]) = ⟨some (assigned num cmd), (targetCell num cmds).sets + 1⟩ := by
  unfold targetCell
  rw [List.getLast?_concat, List.length_append]
  rfl

/-- The part of the page that has to do with the target. -/
structure SameTarget (p q : Page K) : Prop where
  target : q.target = p.target
  seen : q.seen = p.seen
  timer : ∀ t, q.timer = some t → p.timer = some t
  pending : q.effectsPending = true → p.effectsPending = true

/-- What the handler does to the page. -/
structure Handled (num : JsNumber → K) (p q : Page K) (pulled cmds : List (Command Runtime)) :
    Prop where
  latest : p.target.latest = targetCell num pulled →
    q.target.latest = targetCell num (pulled ++ cmds)
  rendered : q.target.rendered = p.target.rendered
  seen : q.seen = p.seen
  timer : q.timer = p.timer
  pending : q.effectsPending = p.effectsPending

theorem handled_batch (batch : List BlockEvent) (p : Page K) (pulled : List (Command Runtime)) :
    Handled num p (p.handle num (batch.map BlockEvent.record)) pulled
      (batch.filterMap BlockEvent.pulled?) := by
  unfold Page.handle
  rw [BlockEvent.handlerUpdates_batch]
  induction batch generalizing p pulled with
  | nil =>
    refine ⟨fun h => ?_, rfl, rfl, rfl, rfl⟩
    rwa [List.filterMap_nil, List.append_nil]
  | cons e batch ih =>
    rw [List.flatMap_cons, List.foldl_append]
    match e with
    | .other r h => exact ih p pulled
    | .swarm (.commandEnqueued c) => exact ih p pulled
    | .swarm (.commandPulled r c l) =>
      -- one more target, and then those of the rest of the batch
      obtain ⟨hlatest, hrendered, hseen, htimer, hpending⟩ :=
        ih ((p.updateEvents (.moving r.toNat (decodedTarget c).x (decodedTarget c).y)).onMoveCommand
          (assigned num c)) (pulled ++ [c])
      refine ⟨fun h => ?_, hrendered, hseen, htimer, hpending⟩
      have hone : ((p.updateEvents (.moving r.toNat (decodedTarget c).x
          (decodedTarget c).y)).onMoveCommand (assigned num c)).target.latest =
          targetCell num (pulled ++ [c]) := by
        rw [targetCell_concat, ← h]
        exact Hook.latest_update _ _
      have hall := hlatest hone
      rw [List.append_assoc] at hall
      exact hall

/-- What the numbers of the targets mean, in every run. The states of the target, of its last
render and of the timer are those after the commands of a prefix of what was pulled each, and every
target that a tick moved toward was asked for by a command. -/
structure Numbered (num : JsNumber → K) (s : Commanded K) : Prop where
  latest : s.page.target.latest = targetCell num s.pulled
  rendered : ∃ cmds, cmds <+: s.pulled ∧ s.page.target.rendered = targetCell num cmds
  timer : ∃ cmds, cmds <+: s.pulled ∧ s.page.seen.target = cmds.length ∧
    ∀ t, s.page.timer = some t → (targetCell num cmds).value = some t.target
  seen_le : s.page.seen.target ≤ s.page.target.rendered.sets
  moved_le : ∀ m ∈ s.moved, m.1 ≤ s.page.seen.target
  moved_value : ∀ i v, (i + 1, v) ∈ s.moved → s.pulled[i]?.map (assigned num) = some v
  ordered : (s.moved.map Prod.fst).Pairwise (· ≤ ·)

namespace Numbered

theorem initial : Numbered num ⟨Page.initial, [], []⟩ where
  latest := rfl
  rendered := ⟨[], List.prefix_rfl, rfl⟩
  timer := ⟨[], List.prefix_rfl, rfl, nofun⟩
  seen_le := Nat.le_refl 0
  moved_le := nofun
  moved_value := nofun
  ordered := List.Pairwise.nil

theorem sets_le_length (h : Numbered num s) : s.page.target.rendered.sets ≤ s.pulled.length := by
  obtain ⟨cmds, hprefix, hcell⟩ := h.rendered
  rw [hcell]
  exact hprefix.length_le

/-- What was taken up stays where it is in the list of commands. -/
theorem getElem?_append (h : Numbered num s) (cmds : List (Command Runtime)) {i : ℕ}
    (hi : i + 1 ≤ s.page.seen.target) : (s.pulled ++ cmds)[i]? = s.pulled[i]? :=
  List.getElem?_append_left
    (Nat.lt_of_lt_of_le hi (h.seen_le.trans h.sets_le_length))

/-- A batch of events. -/
theorem events (h : Numbered num s) {cmds : List (Command Runtime)}
    (hq : Handled num s.page q s.pulled cmds) :
    Numbered num { s with page := q, pulled := s.pulled ++ cmds } := by
  obtain ⟨rendered, hrendered, hcell⟩ := h.rendered
  obtain ⟨timed, htimed, hseen, htimer⟩ := h.timer
  exact {
    latest := hq.latest h.latest
    rendered := ⟨rendered, hrendered.trans (List.prefix_append _ _), hq.rendered.trans hcell⟩
    timer := by
      refine ⟨timed, htimed.trans (List.prefix_append _ _), ?_, ?_⟩
      · rw [hq.seen]; exact hseen
      · rw [hq.timer]; exact htimer
    seen_le := by
      rw [hq.seen, hq.rendered]
      exact h.seen_le
    moved_le := by
      rw [hq.seen]
      exact h.moved_le
    moved_value := fun i v hm => by
      -- what a tick moved toward was taken up, so it is not among the new commands
      rw [h.getElem?_append cmds (h.moved_le _ hm)]
      exact h.moved_value i v hm
    ordered := h.ordered }

/-- A tick, which moves the robots toward the target with the highest number so far. -/
theorem tick [JsArith K] (h : Numbered num s) {t : Timer K} (ht : s.page.timer = some t) :
    Numbered num { s with
      page := s.page.tick t
      moved := s.moved ++ [(s.page.seen.target, t.target)] } := by
  obtain ⟨timed, htimed, hseen, htimer⟩ := h.timer
  exact {
    latest := h.latest
    rendered := h.rendered
    timer := by
      refine ⟨timed, htimed, hseen, fun t' ht' => ?_⟩
      -- the timer is cleared, or counts on
      have hsame : t'.target = t.target := by
        unfold Page.tick at ht'
        dsimp only at ht'
        split_ifs at ht'
        obtain rfl := Option.some.inj ht'
        rfl
      rw [hsame]
      exact htimer t ht
    seen_le := h.seen_le
    moved_le := fun m hm => by
      rcases List.mem_append.mp hm with hm | hm
      · exact h.moved_le m hm
      · rw [List.mem_singleton.mp hm]
        exact Nat.le_refl _
    moved_value := fun i v hm => by
      rcases List.mem_append.mp hm with hm | hm
      · exact h.moved_value i v hm
      · -- the timer's target is that of the last command it was set up for
        obtain ⟨hi, rfl⟩ := Prod.mk.inj (List.mem_singleton.mp hm)
        have hlast : timed.getLast? = timed[i]? := by
          rw [List.getLast?_eq_getElem?, ← hseen, ← hi, Nat.add_sub_cancel]
        have hget : s.pulled[i]? = timed[i]? := by
          obtain ⟨rest, hrest⟩ := htimed
          rw [← hrest, List.getElem?_append_left (by omega)]
        rw [hget, ← hlast]
        exact htimer t ht
    ordered := by
      rw [List.map_append, List.pairwise_append]
      refine ⟨h.ordered, List.pairwise_singleton _ _, fun k hk k' hk' => ?_⟩
      obtain ⟨m, hm, rfl⟩ := List.mem_map.mp hk
      rw [List.mem_singleton.mp hk']
      exact h.moved_le m hm }

/-- A step that has nothing to do with the target. -/
theorem frame (h : Numbered num s) (hq : SameTarget s.page q) :
    Numbered num { s with page := q } := by
  obtain ⟨htarget, hseen, htimer, -⟩ := hq
  obtain ⟨timed, htimed, htimedSeen, htimedTimer⟩ := h.timer
  exact {
    latest := by rw [htarget]; exact h.latest
    rendered := by rw [htarget]; exact h.rendered
    timer := ⟨timed, htimed, by rw [hseen]; exact htimedSeen,
      fun t ht => htimedTimer t (htimer t ht)⟩
    seen_le := by rw [hseen, htarget]; exact h.seen_le
    moved_le := by rw [hseen]; exact h.moved_le
    moved_value := h.moved_value
    ordered := h.ordered }

theorem render (h : Numbered num s) : Numbered num { s with page := s.page.render } where
  latest := h.latest
  rendered := ⟨s.pulled, List.prefix_rfl, h.latest⟩
  timer := h.timer
  seen_le := by
    show s.page.seen.target ≤ s.page.target.latest.sets
    rw [h.latest]
    exact h.seen_le.trans h.sets_le_length
  moved_le := h.moved_le
  moved_value := h.moved_value
  ordered := h.ordered

/-- The timer after the effects is that of the target that was rendered. -/
theorem timer_runEffects (h : Numbered num s) {t : Timer K}
    (ht : s.page.runEffects.timer = some t) :
    s.page.target.rendered.value = some t.target := by
  obtain ⟨timed, htimed, hseen, htimer⟩ := h.timer
  obtain ⟨rendered, hrendered, hcell⟩ := h.rendered
  unfold Page.runEffects at ht
  dsimp only at ht
  split_ifs at ht with hdeps
  · -- the timer is kept, and the target did not change
    have hlen : timed.length = rendered.length := by
      rw [← hseen, ← hdeps]
      show s.page.target.rendered.sets = _
      rw [hcell]
      rfl
    obtain rfl : timed = rendered :=
      (List.prefix_of_prefix_length_le htimed hrendered hlen.le).eq_of_length hlen
    rw [hcell]
    exact htimer t ht
  · obtain ⟨v, hv, rfl⟩ := Option.map_eq_some_iff.mp ht
    exact hv

theorem runEffects (h : Numbered num s) :
    Numbered num { s with page := s.page.runEffects } := by
  obtain ⟨rendered, hrendered, hcell⟩ := h.rendered
  have hsets : s.page.target.rendered.sets = rendered.length := congrArg TargetCell.sets hcell
  exact {
    latest := h.latest
    rendered := h.rendered
    timer := ⟨rendered, hrendered, hsets, fun t ht => hcell ▸ h.timer_runEffects ht⟩
    seen_le := Nat.le_refl _
    moved_le := fun m hm => (h.moved_le m hm).trans h.seen_le
    moved_value := h.moved_value
    ordered := h.ordered }

end Numbered

theorem sameTarget_unmount (p : Page K) : SameTarget p p.unmount := ⟨rfl, rfl, nofun, nofun⟩

/-- The steps by what they have to do with the target. -/
inductive Step [JsArith K] (num : JsNumber → K) (s : Commanded K) :
    CommandedAction K → Commanded K → Prop where
  | events (batch : List BlockEvent) {q : Page K} :
      Handled num s.page q s.pulled (batch.filterMap BlockEvent.pulled?) →
      Step num s (.events batch)
        { s with page := q, pulled := s.pulled ++ batch.filterMap BlockEvent.pulled? }
  | tick {t : Timer K} : s.page.timer = some t →
      Step num s (.page .tick)
        { s with page := s.page.tick t, moved := s.moved ++ [(s.page.seen.target, t.target)] }
  | render : Step num s (.page .commit) { s with page := s.page.render }
  | effects {q : Page K} : s.page.effectsPending = true → SameTarget s.page.runEffects q →
      Step num s (.page .effects) { s with page := q }
  /-- A commit is one of these if the page goes down with it. -/
  | other (a : PageAction K) {q : Page K} : SameTarget s.page q → a ≠ .effects → a ≠ .tick →
      (a = .commit → q.effectsPending = false) → Step num s (.page a) { s with page := q }

section Steps

variable [JsArith K] {a : CommandedAction K}

theorem step_of_act (ha : s.act num a = some s') : Step num s a s' := by
  cases a with
  | events batch =>
    obtain rfl := Option.some.inj ha
    exact .events batch (handled_batch batch s.page s.pulled)
  | page a =>
    cases a with
    | onMoveCommand t => cases ha
    | tick =>
      obtain ⟨t, ht, rfl⟩ := Option.map_eq_some_iff.mp ha
      exact .tick ht
    -- updaters of other states
    | connect | setSwarmType | setRobots | setLoading | updateEvents =>
      obtain rfl := Option.some.inj ha
      exact .other _ ⟨rfl, rfl, fun _ ht => ht, id⟩ nofun nofun nofun
    | commit =>
      obtain ⟨q, hq, rfl⟩ := Option.map_eq_some_iff.mp ha
      obtain rfl | rfl := Page.act_commit_cases hq
      · exact .render
      · -- the page goes down, and its effects with it
        exact .other _ (sameTarget_unmount _) nofun nofun fun _ => rfl
    | effects =>
      obtain ⟨q, hq, rfl⟩ := Option.map_eq_some_iff.mp ha
      have hpending := (Page.act_effects_iff.mp hq).1
      obtain rfl | rfl := Page.act_effects_cases hq
      · exact .effects hpending ⟨rfl, rfl, fun _ ht => ht, id⟩
      · exact .effects hpending (sameTarget_unmount _)

theorem Numbered.step (h : Numbered num s) (ha : Step num s a s') : Numbered num s' := by
  cases ha with
  | events batch hq => exact h.events hq
  | tick ht => exact h.tick ht
  | render => exact h.render
  | effects _ hq => exact h.runEffects.frame hq
  | other a hq => exact h.frame hq

theorem Numbered.run {ls : List (CommandedAction K)}
    (h : (commandedSystem num).Run ⟨Page.initial, [], []⟩ ls s) : Numbered num s :=
  h.invariant (I := Numbered num) .initial fun _ _ _ hs ha => hs.step (step_of_act ha)

/-! ### Several commands in one block -/

/-- The target with number `k` has been passed over for good: React has a later one queued or
rendered, and has not rendered this one. -/
structure PassedOver (s : Commanded K) (k : ℕ) : Prop where
  lt : k < s.pulled.length
  rendered : k ≠ s.page.target.rendered.sets
  seen : k ≠ s.page.seen.target
  moved : ∀ v, (k, v) ∉ s.moved

theorem PassedOver.step {k : ℕ} (h : PassedOver s k) (hs : Numbered num s)
    (ha : Step num s a s') : PassedOver s' k := by
  cases ha with
  | events batch hq =>
    refine ⟨h.lt.trans_le (List.prefix_append _ _).length_le, ?_, ?_, h.moved⟩
    · rw [hq.rendered]; exact h.rendered
    · rw [hq.seen]; exact h.seen
  | tick ht =>
    -- the tick moves toward the target seen last, which is another one
    refine ⟨h.lt, h.rendered, h.seen, fun v hv => ?_⟩
    rcases List.mem_append.mp hv with hv | hv
    · exact h.moved v hv
    · exact h.seen (Prod.mk.inj (List.mem_singleton.mp hv)).1
  | render =>
    -- what is rendered now is the last target asked for
    refine ⟨h.lt, ?_, h.seen, h.moved⟩
    show k ≠ s.page.target.latest.sets
    rw [hs.latest]
    exact h.lt.ne
  | effects _ hq =>
    refine ⟨h.lt, ?_, ?_, h.moved⟩
    · rw [hq.target]; exact h.rendered
    · rw [hq.seen]; exact h.rendered
  | other b hq =>
    refine ⟨h.lt, ?_, ?_, h.moved⟩
    · rw [hq.target]; exact h.rendered
    · rw [hq.seen]; exact h.seen

theorem PassedOver.run {k : ℕ} {ls : List (CommandedAction K)} (h : PassedOver s k)
    (hs : Numbered num s) (hrun : (commandedSystem num).Run s ls s') : PassedOver s' k := by
  have hboth : Numbered num s' ∧ PassedOver s' k := by
    refine hrun.invariant (I := fun s => Numbered num s ∧ PassedOver s k) ⟨hs, h⟩ ?_
    rintro s a s' ⟨hs, h⟩ ha
    exact ⟨hs.step (step_of_act ha), h.step hs (step_of_act ha)⟩
  exact hboth.2

/-- Effects are pending from a commit that went through until they run. -/
theorem Step.pending (h : Step num s a s') (hpending : s'.page.effectsPending = true) :
    (a = .page .commit ∧ s' = { s with page := s.page.render }) ∨
      (a ≠ .page .commit ∧ s.page.effectsPending = true ∧
        s'.page.target.rendered = s.page.target.rendered) := by
  cases h with
  | events batch hq => exact Or.inr ⟨nofun, hq.pending ▸ hpending, hq.rendered⟩
  | tick ht => exact Or.inr ⟨nofun, hpending, rfl⟩
  | render => exact Or.inl ⟨rfl, rfl⟩
  | effects _ hq => cases hq.pending hpending
  | other b hq _ _ hcommit =>
    refine Or.inr ⟨?_, hq.pending hpending, congrArg Hook.rendered hq.target⟩
    rintro ⟨⟩
    exact absurd (hcommit rfl) (Bool.eq_false_iff.not.mpr (not_not.mpr hpending))

/-- Only effects take up a target, that of the last commit. -/
theorem Step.seen (h : Step num s a s') :
    (a = .page .effects ∧ s.page.effectsPending = true ∧
        s'.page.seen.target = s.page.target.rendered.sets) ∨
      (a ≠ .page .effects ∧ s'.page.seen.target = s.page.seen.target) := by
  cases h with
  | events batch hq => exact Or.inr ⟨nofun, congrArg Deps.target hq.seen⟩
  | tick ht => exact Or.inr ⟨nofun, rfl⟩
  | render => exact Or.inr ⟨nofun, rfl⟩
  | effects hpending hq => exact Or.inl ⟨rfl, hpending, congrArg Deps.target hq.seen⟩
  | other b hq hne =>
    exact Or.inr ⟨fun h => hne (CommandedAction.page.inj h), congrArg Deps.target hq.seen⟩

/-- Only ticks move the robots. -/
theorem Step.moved (h : Step num s a s') :
    (a = .page .tick ∧ ∃ v, s'.moved = s.moved ++ [(s.page.seen.target, v)]) ∨
      (a ≠ .page .tick ∧ s'.moved = s.moved) := by
  cases h with
  | tick ht => exact Or.inl ⟨rfl, _, rfl⟩
  | events | render | effects => exact Or.inr ⟨nofun, rfl⟩
  | other b _ _ hne => exact Or.inr ⟨fun h => hne (CommandedAction.page.inj h), rfl⟩

theorem Step.pulled (h : Step num s a s') : s'.pulled = s.pulled ++ a.pulls := by
  cases h with
  | events batch hq => rfl
  | tick | render | effects | other => exact (List.append_nil _).symm

/-- The steps of a run say what the numbers are: what was pulled, rendered, taken up and moved
toward. -/
structure Scheduled (ls : List (CommandedAction K)) (s : Commanded K) : Prop where
  pulled : s.pulled = pulledAlong ls
  committed : s.page.effectsPending = true → CommittedAt s.page.target.rendered.sets ls
  takenUp : s.page.seen.target ≠ 0 → TakenUpAt s.page.seen.target ls
  moved : ∀ i v, (i + 1, v) ∈ s.moved → GetsTurn ls i

namespace Scheduled

variable {ls : List (CommandedAction K)}

theorem committed_step (h : Scheduled ls s) (hs : Numbered num s) (ha : Step num s a s')
    (hpending : s'.page.effectsPending = true) :
    CommittedAt s'.page.target.rendered.sets (ls ++ [a]) := by
  obtain ⟨rfl, rfl⟩ | ⟨hne, hbefore, hrendered⟩ := ha.pending hpending
  · -- the render takes up all that was asked for
    refine ⟨ls, [], rfl, ?_, List.not_mem_nil⟩
    show _ = s.page.target.latest.sets
    rw [hs.latest, ← h.pulled]
    rfl
  · rw [hrendered]
    exact (h.committed hbefore).concat hne

theorem takenUp_step (h : Scheduled ls s) (ha : Step num s a s')
    (hseen : s'.page.seen.target ≠ 0) : TakenUpAt s'.page.seen.target (ls ++ [a]) := by
  obtain ⟨rfl, hpending, htarget⟩ | ⟨hne, htarget⟩ := ha.seen
  · rw [htarget]
    exact ⟨ls, [], rfl, h.committed hpending, List.not_mem_nil⟩
  · rw [htarget] at hseen ⊢
    exact (h.takenUp hseen).concat hne

theorem moved_step (h : Scheduled ls s) (ha : Step num s a s') {i : ℕ} {v : Vec K}
    (hm : (i + 1, v) ∈ s'.moved) : GetsTurn (ls ++ [a]) i := by
  obtain ⟨rfl, v', hmoved⟩ | ⟨-, hmoved⟩ := ha.moved
  · rw [hmoved] at hm
    rcases List.mem_append.mp hm with hm | hm
    · exact (h.moved i v hm).concat _
    · -- a tick toward the target that was taken up last
      obtain ⟨hi, -⟩ := Prod.mk.inj (List.mem_singleton.mp hm)
      refine ⟨ls, [], rfl, ?_⟩
      rw [hi]
      exact h.takenUp (hi ▸ Nat.succ_ne_zero i)
  · rw [hmoved] at hm
    exact (h.moved i v hm).concat a

theorem step (h : Scheduled ls s) (hs : Numbered num s) (ha : Step num s a s') :
    Scheduled (ls ++ [a]) s' where
  pulled := by
    unfold pulledAlong
    rw [ha.pulled, h.pulled, List.flatMap_append, List.flatMap_singleton]
    rfl
  committed := h.committed_step hs ha
  takenUp := h.takenUp_step ha
  moved _ _ := h.moved_step ha

theorem run (h : (commandedSystem num).Run ⟨Page.initial, [], []⟩ ls s) :
    Scheduled ls s ∧ Numbered num s := by
  refine h.induction (P := fun ls s => Scheduled ls s ∧ Numbered num s) ?_ ?_
  · exact ⟨⟨rfl, nofun, fun hseen => absurd rfl hseen, nofun⟩, .initial⟩
  · intro ls s a s' _ ⟨h, hs⟩ ha
    exact ⟨h.step hs (step_of_act ha), hs.step (step_of_act ha)⟩

end Scheduled

/-! ### A turn is a tick toward the location -/

section Turns

variable {ls : List (CommandedAction K)} {k : ℕ}

/-- What was rendered stays until the next commit. -/
theorem rendered_of_run {vs : List (CommandedAction K)} (h : (commandedSystem num).Run s vs s')
    (hvs : .page .commit ∉ vs) (hpending : s'.page.effectsPending = true) :
    s.page.effectsPending = true ∧ s'.page.target.rendered = s.page.target.rendered := by
  induction h with
  | nil => exact ⟨hpending, rfl⟩
  | @concat s₁ s₂ vs a _ ha ih =>
    obtain ⟨rfl, -⟩ | ⟨-, hbefore, hrendered⟩ := (step_of_act ha).pending hpending
    · exact absurd (List.mem_append_right _ (List.mem_singleton_self _)) hvs
    · obtain ⟨hstart, hsame⟩ := ih (fun hmem => hvs (List.mem_append_left _ hmem)) hbefore
      exact ⟨hstart, hrendered.trans hsame⟩

/-- What was taken up stays until the next effects. -/
theorem seen_of_run {vs : List (CommandedAction K)} (h : (commandedSystem num).Run s vs s')
    (hvs : .page .effects ∉ vs) : s'.page.seen.target = s.page.seen.target := by
  induction h with
  | nil => rfl
  | @concat s₁ s₂ vs a _ ha ih =>
    obtain ⟨rfl, -⟩ | ⟨-, hseen⟩ := (step_of_act ha).seen
    · exact absurd (List.mem_append_right _ (List.mem_singleton_self _)) hvs
    · exact hseen.trans (ih fun hmem => hvs (List.mem_append_left _ hmem))

theorem moved_of_run {vs : List (CommandedAction K)} (h : (commandedSystem num).Run s vs s') :
    s.moved <+: s'.moved := by
  refine h.invariant (I := fun s' => s.moved <+: s'.moved) List.prefix_rfl ?_
  intro s₁ a s₂ ih ha
  obtain ⟨-, v, hmoved⟩ | ⟨-, hmoved⟩ := (step_of_act ha).moved
  · rw [hmoved]
    exact ih.trans (List.prefix_append _ _)
  · rwa [hmoved]

/-- Pending effects are those of the last commit. -/
theorem CommittedAt.sets_rendered (hls : CommittedAt k ls)
    (h : (commandedSystem num).Run ⟨Page.initial, [], []⟩ ls s)
    (hpending : s.page.effectsPending = true) : s.page.target.rendered.sets = k := by
  obtain ⟨us, vs, rfl, hk, hvs⟩ := hls
  obtain ⟨s₁, hus, hrest⟩ := h.exists_of_append
  obtain ⟨s₂, hcommit, hlater⟩ := hrest.exists_of_cons
  obtain ⟨hafter, hrendered⟩ := rendered_of_run hlater hvs hpending
  obtain ⟨hscheduled, hnumbered⟩ := Scheduled.run hus
  obtain ⟨-, rfl⟩ | ⟨hne, -⟩ := (step_of_act hcommit).pending hafter
  · calc s.page.target.rendered.sets = s₁.page.target.latest.sets :=
        congrArg TargetCell.sets hrendered
      _ = s₁.pulled.length := congrArg TargetCell.sets hnumbered.latest
      _ = k := by rw [hscheduled.pulled, hk]
  · exact absurd rfl hne

theorem TakenUpAt.seen_target (hls : TakenUpAt k ls)
    (h : (commandedSystem num).Run ⟨Page.initial, [], []⟩ ls s) : s.page.seen.target = k := by
  obtain ⟨us, vs, rfl, hcommitted, hvs⟩ := hls
  obtain ⟨s₁, hus, hrest⟩ := h.exists_of_append
  obtain ⟨s₂, heffects, hlater⟩ := hrest.exists_of_cons
  -- effects can only run if there was a commit, so it went through
  obtain ⟨-, hpending, htarget⟩ | ⟨hne, -⟩ := (step_of_act heffects).seen
  · rw [seen_of_run hlater hvs, htarget, hcommitted.sets_rendered hus hpending]
  · exact absurd rfl hne

theorem GetsTurn.moved {i : ℕ} (hls : GetsTurn ls i)
    (h : (commandedSystem num).Run ⟨Page.initial, [], []⟩ ls s) : ∃ v, (i + 1, v) ∈ s.moved := by
  obtain ⟨us, vs, rfl, htaken⟩ := hls
  obtain ⟨s₁, hus, hrest⟩ := h.exists_of_append
  obtain ⟨s₂, htick, hlater⟩ := hrest.exists_of_cons
  obtain ⟨-, v, hmoved⟩ | ⟨hne, -⟩ := (step_of_act htick).moved
  · refine ⟨v, (moved_of_run hlater).subset ?_⟩
    rw [hmoved, htaken.seen_target hus]
    exact List.mem_append_right _ (List.mem_singleton_self _)
  · exact absurd rfl hne

end Turns

/-! ### Turns that can be given -/

section Possible

variable {ls : List (CommandedAction K)}

omit [JsArith K] in
theorem RobotsKept.foldl_updates (us : List HandlerUpdate) {p : Page K} (h : RobotsKept p) :
    RobotsKept (us.foldl (HandlerUpdate.apply num) p) := by
  induction us generalizing p with
  | nil => exact h
  | cons u us ih =>
    rw [List.foldl_cons]
    cases u with
    | updateEvents line => exact ih (h.frame rfl rfl rfl rfl)
    | setTarget t => exact ih (h.frame rfl rfl rfl rfl)

/-- Once the effects of the last commit have run, a target that was not rendered can be. -/
theorem exists_turn_of_settled (hs : Numbered num s) (hkept : RobotsKept s.page)
    (hsettled : s.page.effectsPending = false)
    (hnew : s.page.target.rendered.sets < s.pulled.length) :
    ∃ s', (commandedSystem num).Run s [.page .commit, .page .effects, .page .tick] s' := by
  have hupdates : s.page.hasUpdates = true := by
    cases hqueue : s.page.target.queue with
    | nil =>
      have hsets := congrArg TargetCell.sets hs.latest
      unfold Hook.latest at hsets
      rw [hqueue] at hsets
      exact absurd hsets hnew.ne
    | cons f fs =>
      unfold Page.hasUpdates
      rw [hqueue]
      simp
  have hcommit : s.act num (.page .commit) = some { s with page := s.page.render } := by
    have hact := Page.act_commit_iff.mpr ⟨⟨hkept.mounted, hupdates, hsettled⟩, hkept.commit_eq⟩
    exact congrArg (Option.map fun q => { s with page := q }) hact
  have heffects : ({ s with page := s.page.render } : Commanded K).act num (.page .effects) =
      some { s with page := s.page.render.runEffects } := by
    have hact := Page.act_effects_iff.mpr ⟨rfl, hkept.render.effects_eq⟩
    exact congrArg (Option.map fun q => { s with page := q }) hact
  -- the effect sees a new target, and sets up the timer for it
  obtain ⟨t, ht⟩ : ∃ t, s.page.render.runEffects.timer = some t := by
    have hdeps : s.page.render.deps ≠ s.page.render.seen := by
      intro heq
      have hseen : s.page.target.latest.sets = s.page.seen.target := congrArg Deps.target heq
      rw [hs.latest] at hseen
      exact absurd (hs.seen_le.trans_lt hnew) (hseen ▸ lt_irrefl _)
    have hpulled : s.pulled ≠ [] := List.ne_nil_of_length_pos (Nat.zero_lt_of_lt hnew)
    have hvalue : s.page.render.target.rendered.value =
        some (assigned num (s.pulled.getLast hpulled)) := by
      show s.page.target.latest.value = _
      rw [hs.latest]
      unfold targetCell
      rw [List.getLast?_eq_some_getLast hpulled]
      rfl
    have htimer : s.page.render.runEffects.timer =
        s.page.render.target.rendered.value.map fun t => ⟨0, t, s.page.render.swarmType.rendered⟩ :=
      if_neg hdeps
    rw [htimer, hvalue]
    exact ⟨_, rfl⟩
  have htick : ({ s with page := s.page.render.runEffects } : Commanded K).act num (.page .tick) =
      some _ := congrArg (Option.map _) ht
  exact ⟨_, .cons hcommit (.cons heffects (.single htick))⟩

/-- **A turn can always be given.** As long as the robots are a list, the last command of any batch
can be given its turn, whatever happened before. -/
theorem exists_turn (h : (commandedSystem num).Run ⟨Page.initial, [], []⟩ ls s)
    (hkept : RobotsKept s.page) {batch : List BlockEvent}
    (hbatch : batch.filterMap BlockEvent.pulled? ≠ []) :
    ∃ ks s', (commandedSystem num).Run s (.events batch :: ks) s' ∧
      ∀ i, i + 1 = (s.pulled ++ batch.filterMap BlockEvent.pulled?).length →
        GetsTurn (ls ++ .events batch :: ks) i := by
  obtain ⟨hscheduled, hnumbered⟩ := Scheduled.run h
  let cmds := batch.filterMap BlockEvent.pulled?
  let s₁ : Commanded K :=
    { s with page := s.page.handle num (batch.map BlockEvent.record), pulled := s.pulled ++ cmds }
  have hevents : s.act num (.events batch) = some s₁ := rfl
  have hs₁ : Numbered num s₁ := hnumbered.step (step_of_act hevents)
  have hkept₁ : RobotsKept s₁.page := hkept.foldl_updates _
  have hnew : s₁.page.target.rendered.sets < s₁.pulled.length := by
    have hhandled : Handled num s.page _ s.pulled cmds := handled_batch batch s.page s.pulled
    have hpos : 0 < cmds.length := List.length_pos_iff.mpr hbatch
    show (s.page.handle num _).target.rendered.sets < (s.pulled ++ cmds).length
    rw [hhandled.rendered, List.length_append]
    exact Nat.lt_of_le_of_lt hnumbered.sets_le_length (Nat.lt_add_of_pos_right hpos)
  -- the turn, after steps that pull nothing
  have hturn : ∀ us : List (CommandedAction K), pulledAlong us = [] → ∀ i,
      i + 1 = (s.pulled ++ cmds).length →
      GetsTurn (ls ++ .events batch :: (us ++ [.page .commit, .page .effects, .page .tick])) i := by
    intro us hus i hi
    have hlength : (pulledAlong (ls ++ .events batch :: us)).length = i + 1 := by
      have hall : pulledAlong (ls ++ .events batch :: us) =
          pulledAlong ls ++ (cmds ++ pulledAlong us) := by
        unfold pulledAlong
        rw [List.flatMap_append, List.flatMap_cons]
        rfl
      rw [hall, hus, List.append_nil, ← hscheduled.pulled, hi]
    refine ⟨ls ++ .events batch :: us ++ [.page .commit, .page .effects], [], by simp, ?_⟩
    refine ⟨ls ++ .events batch :: us ++ [.page .commit], [], by simp, ?_, List.not_mem_nil⟩
    exact ⟨ls ++ .events batch :: us, [], by simp, hlength, List.not_mem_nil⟩
  cases hpending : s₁.page.effectsPending with
  | false =>
    obtain ⟨s', hrun⟩ := exists_turn_of_settled hs₁ hkept₁ hpending hnew
    exact ⟨_, s', .cons hevents hrun, hturn [] rfl⟩
  | true =>
    -- the effects of the last commit run first
    have heffects : s₁.act num (.page .effects) = some { s₁ with page := s₁.page.runEffects } := by
      have hact := Page.act_effects_iff.mpr ⟨hpending, hkept₁.effects_eq⟩
      exact congrArg (Option.map fun q => { s₁ with page := q }) hact
    obtain ⟨s', hrun⟩ := exists_turn_of_settled hs₁.runEffects hkept₁.runEffects rfl hnew
    exact ⟨_, s', .cons hevents (.cons heffects hrun), hturn [.page .effects] rfl⟩

end Possible

/-! ### Two locations -/

end Steps

end Commanded

/-- Numbers of the page as reals. What is not finite does not occur below. -/
noncomputable def JsNumber.toReal : JsNumber → ℝ
  | .val q => q
  | _ => 0

/-- Robot `0` has pulled a location. -/
def pulledEvent (x y : UInt32) : BlockEvent :=
  .swarm (.commandPulled (0 : UInt32) (.goToLocation ⟨x, y⟩) (some ⟨x, y⟩))

end SwarmBase
