import SwarmBase.Framework.Reader
import SwarmBase.Ui.Commands
import SwarmBase.Ui.Log
import SwarmBase.World.Model

/-!
# From the chain to every page

A page that is connected subscribes to the events of the chain. The subscription calls back with
the events of one block after another, in the order in which they were deposited, and the callback
logs a move and sets the target for every `CommandPulled` event among them. Blocks reach different
pages at different times, and each page subscribes when it is ready, so a page sees a part of the
events only.

`Observed` is the world with the subscriptions. A subscription reads the event log of the chain
(`Reader`), from wherever the block it was opened at begins.

* `moves_follow_queue` — the moves a page logs are those of the events delivered to it, which are a
  segment, in order, of the commands that were enqueued on the chain; its target is the last of
  them, and nothing else changes either;
* `caught_up_agree` — pages that have come equally far agree on the target.
-/

namespace SwarmBase

open Framework

/-! ### Moves -/

/-- The event of the pallet that an event of a block is. -/
def BlockEvent.swarm? : BlockEvent → Option (Swarm.Event Runtime)
  | .swarm e => some e
  | .other _ _ => none

/-- The robot and the target of a logged move. -/
def LogLine.move? : LogLine → Option (ℕ × Target)
  | .moving robot x y => some (robot, ⟨x, y⟩)
  | _ => none

/-- The move the page logs for an event. -/
def Swarm.Event.move? : Swarm.Event Runtime → Option (ℕ × Target)
  | .commandPulled r c _ => some (r.toNat, decodedTarget c)
  | .commandEnqueued _ => none

/-- The line an update appends to the log. -/
def HandlerUpdate.line? : HandlerUpdate → Option LogLine
  | .updateEvents line => some line
  | .setTarget _ => none

variable {C K : Type}

/-- The moves in the log of the page. -/
def Page.moves (p : Page K) : List (ℕ × Target) := p.events.latest.filterMap LogLine.move?

/-- Whether a page step logs a move or sets a target. -/
def PageAction.isMove : PageAction K → Bool
  | .onMoveCommand _ => true
  | .updateEvents line => line.move?.isSome
  | _ => false

section Handler

variable {num : JsNumber → K}

theorem events_handle_updates (us : List HandlerUpdate) (p : Page K) :
    (us.foldl (HandlerUpdate.apply num) p).events.latest =
      p.events.latest ++ us.filterMap HandlerUpdate.line? := by
  induction us generalizing p with
  | nil => exact (List.append_nil _).symm
  | cons u us ih =>
    rw [List.foldl_cons, ih]
    cases u with
    | setTarget t => rfl
    | updateEvents line =>
      have hline : (p.updateEvents line).events.latest = p.events.latest ++ [line] :=
        Hook.latest_update _ _
      show (p.updateEvents line).events.latest ++ _ = _
      rw [hline, List.append_assoc]
      rfl

/-- The moves of a batch are those of the events of the pallet in it. -/
theorem filterMap_updates (batch : List BlockEvent) :
    ((batch.flatMap BlockEvent.updates).filterMap HandlerUpdate.line?).filterMap LogLine.move? =
      (batch.filterMap BlockEvent.swarm?).filterMap Swarm.Event.move? := by
  induction batch with
  | nil => rfl
  | cons e batch ih =>
    rw [List.flatMap_cons, List.filterMap_append, List.filterMap_append, ih]
    match e with
    | .other r h => rfl
    | .swarm (.commandEnqueued c) => rfl
    | .swarm (.commandPulled r c l) => rfl

theorem moves_handle (batch : List BlockEvent) (p : Page K) :
    (p.handle num (batch.map BlockEvent.record)).moves =
      p.moves ++ (batch.filterMap BlockEvent.swarm?).filterMap Swarm.Event.move? := by
  unfold Page.moves Page.handle
  rw [BlockEvent.handlerUpdates_batch, events_handle_updates, List.filterMap_append,
    filterMap_updates]

theorem pulled_swarm (batch : List BlockEvent) :
    batch.filterMap BlockEvent.pulled? =
      Swarm.pulledCommands (batch.filterMap BlockEvent.swarm?) := by
  unfold Swarm.pulledCommands
  rw [List.filterMap_filterMap]
  refine List.filterMap_congr fun e _ => ?_
  match e with
  | .other r h => rfl
  | .swarm (.commandEnqueued c) => rfl
  | .swarm (.commandPulled r c l) => rfl

end Handler

/-- The targets of the moves are those of the commands pulled. -/
theorem moves_pulled (es : List (Swarm.Event Runtime)) :
    (es.filterMap Swarm.Event.move?).map Prod.snd =
      (Swarm.pulledCommands es).map decodedTarget := by
  unfold Swarm.pulledCommands
  rw [List.map_filterMap, List.map_filterMap]
  refine List.filterMap_congr fun e _ => ?_
  cases e <;> rfl

/-! ### Flows do not move the robots -/

section Flows

variable [JsArith K] {p q : Page K}

/-- What the subscription alone changes. -/
theorem Page.act_of_not_move {a : PageAction K} (ha : p.act a = some q) (hmove : a.isMove = false) :
    q.moves = p.moves ∧ q.target.latest = p.target.latest := by
  have hlines : a.lines.filterMap LogLine.move? = [] := by
    cases a with
    -- the line it logs is none of a pull
    | updateEvents line =>
      unfold PageAction.isMove at hmove
      rw [Option.isSome_eq_false_iff, Option.isNone_iff_eq_none] at hmove
      show List.filterMap LogLine.move? [line] = []
      rw [List.filterMap_cons_none hmove, List.filterMap_nil]
    | _ => rfl
  refine ⟨?_, ?_⟩
  · unfold Page.moves
    rw [Page.events_act ha, List.filterMap_append, hlines, List.append_nil]
  · cases a with
    | onMoveCommand => cases hmove
    | connect | setSwarmType | setRobots | setLoading | updateEvents =>
      obtain rfl := Option.some.inj ha
      rfl
    | tick =>
      obtain ⟨t, -, rfl⟩ := Page.act_tick_iff.mp ha
      rfl
    | commit =>
      obtain rfl | rfl := Page.act_commit_cases ha
      · rfl
      · rfl
    | effects =>
      obtain rfl | rfl := Page.act_effects_cases ha
      · rfl
      · rfl

theorem Page.runAct_of_not_move {as : List (PageAction K)}
    (h : System.runAct Page.act p as = some q) (hmove : ∀ a ∈ as, a.isMove = false) :
    q.moves = p.moves ∧ q.target.latest = p.target.latest := by
  induction as generalizing p with
  | nil =>
    obtain rfl := Option.some.inj h
    exact ⟨rfl, rfl⟩
  | cons a as ih =>
    obtain ⟨p', ha, hrest⟩ := Option.bind_eq_some_iff.mp h
    obtain ⟨hmoves, htarget⟩ := Page.act_of_not_move ha (hmove a List.mem_cons_self)
    obtain ⟨hmoves', htarget'⟩ := ih hrest fun b hb => hmove b (List.mem_cons_of_mem a hb)
    exact ⟨hmoves'.trans hmoves, htarget'.trans htarget⟩

omit [JsArith K] in
theorem PageAction.not_move_of_flowUpdate {a : PageAction K} (h : a.isFlowUpdate = true) :
    a.isMove = false := by
  cases a with
  | updateEvents line => cases line <;> first | rfl | cases h
  | onMoveCommand => cases h
  | _ => rfl

end Flows

/-- Whether a step of the world moves the robots of a page, which only a subscription does. -/
def WorldAction.isMove : WorldAction C K → Bool
  | .page _ a => a.isMove
  | _ => false

section World

variable [DecidableEq C] [JsArith K] {w w' : World C K} {l : WorldAction C K}

omit [DecidableEq C] [JsArith K] in
theorem World.Stretch.not_move {c : C} {e : Effect K} {kept : List (C × Task K)} {clicks : ℕ}
    (h : World.Stretch w l c e kept clicks) (hl : l.isMove = false) :
    ∀ a ∈ e.1, a.isMove = false := by
  obtain ⟨a, rfl, rfl⟩ | hflow := h.page_or_flow
  · intro b hb
    rwa [List.mem_singleton.mp hb]
  · exact fun a ha => PageAction.not_move_of_flowUpdate (hflow a ha)

theorem World.act_of_not_move (h : w.act l = some w') (hl : l.isMove = false) (c : C) :
    (w'.pages c).moves = (w.pages c).moves ∧
      (w'.pages c).target.latest = (w.pages c).target.latest := by
  obtain ⟨d, e, kept, clicks, p, hst, hp, rfl⟩ | ⟨i, d, tx, -, -, rfl⟩ := World.act_cases h
  · by_cases hcd : c = d
    · subst hcd
      rw [World.after_pages_self]
      exact Page.runAct_of_not_move hp (hst.not_move hl)
    · rw [World.after_pages_of_ne hcd]
      exact ⟨rfl, rfl⟩
  · exact ⟨rfl, rfl⟩

/-- The chain after a step of the world: a call was dispatched, or none was. -/
theorem World.chain_act (h : w.act l = some w') :
    ∃ xs, w'.chain = Exec.run Swarm.dispatch w.chain xs :=
  World.run_chain (System.Run.single h)

end World

/-! ### Subscriptions -/

/-- The world, and how far the subscription of each page has come. -/
structure Observed (C K : Type) where
  world : World C K
  feeds : C → Option Reader

inductive ObservedAction (C K : Type) where
  | world (l : WorldAction C K)
  /-- The subscription of a page begins, with the block whose first event is the `n`-th. -/
  | subscribe (c : C) (n : ℕ)
  /-- The subscription of a page calls back. -/
  | events (c : C) (batch : List BlockEvent)

section Observed

variable [DecidableEq C] [JsArith K] (num : JsNumber → K)

/-- The callback of the subscription of the page `c`, which has come as far as `r`. -/
def Observed.receive (s : Observed C K) (c : C) (r : Reader) (batch : List BlockEvent) :
    Observed C K where
  world := { s.world with
    pages := Function.update s.world.pages c
      ((s.world.pages c).handle num (batch.map BlockEvent.record)) }
  feeds := Function.update s.feeds c
    (some (r.advance (batch.filterMap BlockEvent.swarm?).length))

/-- The effect that subscribes runs in a render with an `api`, and once. -/
def Observed.act (s : Observed C K) : ObservedAction C K → Option (Observed C K)
  | .world l => if l.isMove then none else (s.world.act l).map fun w => { s with world := w }
  | .subscribe c n =>
    if (s.feeds c).isNone ∧ (s.world.pages c).onClickRef.ready ∧
        n ≤ s.world.chain.events.length then
      some { s with feeds := Function.update s.feeds c (some (.fresh n)) }
    else none
  | .events c batch =>
    (s.feeds c).bind fun r =>
      if batch.filterMap BlockEvent.swarm? <+: s.world.chain.events.drop r.upTo then
        some (s.receive num c r batch)
      else none

/-- The world when the pages are opened. Nobody has subscribed. -/
def Observed.opened (signer : Runtime.AccountId) (chain : Swarm.Storage Runtime) : Observed C K :=
  ⟨World.opened signer chain, fun _ => none⟩

def observedSystem : System (Observed C K) (ObservedAction C K) :=
  .ofAct (fun s => s = Observed.opened s.world.signer s.world.chain) (Observed.act num)

/-- The events that have reached a page. -/
def Observed.received (s : Observed C K) (c : C) : List (Swarm.Event Runtime) :=
  (s.feeds c).elim [] fun r => r.read s.world.chain.events

/-- The events of the pallet that a step delivers to the page `c`. -/
def ObservedAction.delivers (c : C) : ObservedAction C K → List (Swarm.Event Runtime)
  | .events d batch => if d = c then batch.filterMap BlockEvent.swarm? else []
  | _ => []

/-- The events that the steps of a run deliver to the page `c`. -/
def delivered (c : C) (ls : List (ObservedAction C K)) : List (Swarm.Event Runtime) :=
  ls.flatMap (ObservedAction.delivers c)

end Observed

section Runs

variable [DecidableEq C] [JsArith K] {num : JsNumber → K} {s s' : Observed C K}
  {l : ObservedAction C K} {c d : C} {es : List (Swarm.Event Runtime)}

omit [JsArith K] in
theorem delivers_events_self (batch : List BlockEvent) :
    (ObservedAction.events (K := K) c batch).delivers c = batch.filterMap BlockEvent.swarm? :=
  if_pos rfl

omit [JsArith K] in
theorem delivers_events_of_ne (h : c ≠ d) (batch : List BlockEvent) :
    (ObservedAction.events (K := K) d batch).delivers c = [] :=
  if_neg h.symm

omit [JsArith K] in
theorem delivered_concat (c : C) (ls : List (ObservedAction C K)) (l : ObservedAction C K) :
    delivered c (ls ++ [l]) = delivered c ls ++ l.delivers c := by
  unfold delivered
  rw [List.flatMap_append, List.flatMap_singleton]

omit [DecidableEq C] [JsArith K] in
theorem received_of_feeds {r : Reader} (h : s.feeds c = some r) :
    s.received c = r.read s.world.chain.events := by
  unfold Observed.received
  rw [h]
  rfl

/-- **Inversion.** -/
theorem Observed.act_cases (h : s.act num l = some s') :
    (∃ wl, l = .world wl ∧ wl.isMove = false ∧ s.world.act wl = some s'.world ∧
      s'.feeds = s.feeds) ∨
    (∃ c n, l = .subscribe c n ∧ s.feeds c = none ∧ n ≤ s.world.chain.events.length ∧
      s' = { s with feeds := Function.update s.feeds c (some (.fresh n)) }) ∨
    ∃ c, ∃ batch : List BlockEvent, ∃ r, l = .events c batch ∧ s.feeds c = some r ∧
      batch.filterMap BlockEvent.swarm? <+: s.world.chain.events.drop r.upTo ∧
      s' = s.receive num c r batch := by
  cases l with
  | world wl =>
    unfold act at h
    dsimp only at h
    -- a step of the world is one of these if it is not left to the subscriptions
    split_ifs at h with hmove
    obtain ⟨w, hw, rfl⟩ := Option.map_eq_some_iff.mp h
    exact Or.inl ⟨wl, rfl, Bool.eq_false_iff.mpr hmove, hw, rfl⟩
  | subscribe c n =>
    unfold act at h
    dsimp only at h
    split_ifs at h with hguard
    -- a page subscribes once
    obtain ⟨hnone, -, hn⟩ := hguard
    exact Or.inr (Or.inl ⟨c, n, rfl, Option.isNone_iff_eq_none.mp hnone, hn,
      (Option.some.inj h).symm⟩)
  | events c batch =>
    obtain ⟨r, hr, h⟩ := Option.bind_eq_some_iff.mp h
    split_ifs at h with hprefix
    exact Or.inr (Or.inr ⟨c, batch, r, rfl, hr, hprefix, (Option.some.inj h).symm⟩)

theorem Observed.act_events (num : JsNumber → K) (batch : List BlockEvent) {r : Reader}
    (hr : s.feeds c = some r)
    (hbatch : batch.filterMap BlockEvent.swarm? <+: s.world.chain.events.drop r.upTo) :
    s.act num (.events c batch) = some (s.receive num c r batch) := by
  have hact : s.act num (.events c batch) = (s.feeds c).bind fun r =>
      if batch.filterMap BlockEvent.swarm? <+: s.world.chain.events.drop r.upTo then
        some (s.receive num c r batch)
      else none := rfl
  rw [hact, hr]
  exact if_pos hbatch

/-- The invariant of a page: the events `es` have reached it, it has made their moves, and no
others. -/
structure FollowsChain (num : JsNumber → K) (c : C) (es : List (Swarm.Event Runtime))
    (s : Observed C K) : Prop where
  upTo_le : ∀ r, s.feeds c = some r → r.upTo ≤ s.world.chain.events.length
  received : s.received c = es
  moves : (s.world.pages c).moves = es.filterMap Swarm.Event.move?
  target : (s.world.pages c).target.latest = targetCell num (Swarm.pulledCommands es)

omit [DecidableEq C] [JsArith K] in
theorem FollowsChain.opened (signer : Runtime.AccountId) (chain : Swarm.Storage Runtime) :
    FollowsChain num c [] (Observed.opened signer chain) where
  upTo_le := nofun
  received := rfl
  moves := rfl
  target := rfl

/-- The log of the chain grows at its end. -/
theorem events_prefix (chain : Swarm.Storage Runtime) (xs : List (Swarm.Extrinsic Runtime)) :
    chain.events <+: (Exec.run Swarm.dispatch chain xs).events := by
  obtain ⟨log, hlog, -⟩ := Swarm.run_fifo chain xs
  exact ⟨log, hlog.symm⟩

theorem FollowsChain.world (h : FollowsChain num c es s) {wl : WorldAction C K}
    (hmove : wl.isMove = false) (hw : s.world.act wl = some s'.world)
    (hfeeds : s'.feeds = s.feeds) : FollowsChain num c es s' := by
  obtain ⟨hmoves, htarget⟩ := World.act_of_not_move hw hmove c
  obtain ⟨xs, hxs⟩ := World.chain_act hw
  obtain ⟨more, hmore⟩ := events_prefix s.world.chain xs
  rw [← hxs] at hmore
  -- what is new in the log has not reached the page
  have hreceived : s'.received c = s.received c := by
    unfold Observed.received
    rw [hfeeds, ← hmore]
    cases hr : s.feeds c with
    | none => rfl
    | some r => exact r.read_append (h.upTo_le r hr) more
  refine ⟨?_, hreceived.trans h.received, hmoves.trans h.moves, htarget.trans h.target⟩
  intro r hr
  rw [hfeeds] at hr
  rw [← hmore, List.length_append]
  exact Nat.le_add_right_of_le (h.upTo_le r hr)

omit [DecidableEq C] [JsArith K] in
/-- What another page receives is nothing to the page. -/
theorem FollowsChain.congr (h : FollowsChain num c es s) (hfeed : s'.feeds c = s.feeds c)
    (hpage : s'.world.pages c = s.world.pages c) (hchain : s'.world.chain = s.world.chain) :
    FollowsChain num c es s' := by
  have hreceived : s'.received c = s.received c := by
    unfold Observed.received
    rw [hfeed, hchain]
  refine ⟨?_, hreceived.trans h.received, ?_, ?_⟩
  · rw [hfeed, hchain]
    exact h.upTo_le
  · rw [hpage]
    exact h.moves
  · rw [hpage]
    exact h.target

omit [JsArith K] in
/-- The page subscribes: nothing was received before, and nothing is now. -/
theorem FollowsChain.subscribe (h : FollowsChain num c es s) {n : ℕ} (hnone : s.feeds c = none)
    (hn : n ≤ s.world.chain.events.length) :
    FollowsChain num c es ⟨s.world, Function.update s.feeds c (some (.fresh n))⟩ := by
  have hfeed : Function.update s.feeds c (some (.fresh n)) c = some (Reader.fresh n) :=
    Function.update_self _ _ _
  have hold : s.received c = [] := by
    unfold Observed.received
    rw [hnone]
    rfl
  refine ⟨?_, ?_, h.moves, h.target⟩
  · intro r hr
    rw [← Option.some.inj (hfeed.symm.trans hr)]
    exact hn
  · rw [received_of_feeds hfeed, Reader.read_fresh, ← hold]
    exact h.received

omit [DecidableEq C] [JsArith K] in
/-- The subscription of the page calls back. -/
theorem FollowsChain.events (h : FollowsChain num c es s) {batch : List BlockEvent} {r : Reader}
    (hr : s.feeds c = some r)
    (hbatch : batch.filterMap BlockEvent.swarm? <+: s.world.chain.events.drop r.upTo)
    (hchain : s'.world.chain = s.world.chain)
    (hpage : s'.world.pages c = (s.world.pages c).handle num (batch.map BlockEvent.record))
    (hfeed : s'.feeds c = some (r.advance (batch.filterMap BlockEvent.swarm?).length)) :
    FollowsChain num c (es ++ batch.filterMap BlockEvent.swarm?) s' := by
  have hupTo := h.upTo_le r hr
  refine ⟨?_, ?_, ?_, ?_⟩
  · intro r' hr'
    rw [← Option.some.inj (hfeed.symm.trans hr'), hchain]
    exact Reader.upTo_advance_le hupTo hbatch
  · rw [received_of_feeds hfeed, hchain, Reader.read_advance hupTo hbatch, ← received_of_feeds hr,
      h.received]
  · rw [hpage, moves_handle, h.moves, List.filterMap_append]
  · rw [hpage, Swarm.pulledCommands_append, ← pulled_swarm]
    exact (handled_batch batch (s.world.pages c) _).latest h.target

/-- **One step.** The page makes the moves of what the step delivers to it. -/
theorem FollowsChain.act (h : FollowsChain num c es s) (hstep : s.act num l = some s') :
    FollowsChain num c (es ++ l.delivers c) s' := by
  obtain ⟨wl, rfl, hmove, hw, hfeeds⟩ | ⟨d, n, rfl, hnone, hn, rfl⟩ |
    ⟨d, batch, r, rfl, hr, hbatch, rfl⟩ := Observed.act_cases hstep
  · show FollowsChain num c (es ++ []) s'
    rw [List.append_nil]
    exact h.world hmove hw hfeeds
  · show FollowsChain num c (es ++ []) _
    rw [List.append_nil]
    -- another page may subscribe
    by_cases hcd : c = d
    · subst hcd
      exact h.subscribe hnone hn
    · exact h.congr (Function.update_of_ne hcd _ _) rfl rfl
  · by_cases hcd : c = d
    · subst hcd
      rw [delivers_events_self]
      exact h.events hr hbatch rfl (Function.update_self _ _ _) (Function.update_self _ _ _)
    · rw [delivers_events_of_ne hcd, List.append_nil]
      exact h.congr (Function.update_of_ne hcd _ _) (Function.update_of_ne hcd _ _) rfl

theorem FollowsChain.run {signer : Runtime.AccountId} {chain : Swarm.Storage Runtime}
    {ls : List (ObservedAction C K)}
    (h : (observedSystem num).Run (Observed.opened signer chain) ls s) (c : C) :
    FollowsChain num c (delivered c ls) s := by
  refine h.induction (P := fun ls s => FollowsChain num c (delivered c ls) s)
    (.opened signer chain) ?_
  intro ls s l s' _ ih hstep
  rw [delivered_concat]
  exact ih.act hstep

/-- A step that delivers no `CommandPulled` event to a page neither moves it nor sets its target. -/
theorem FollowsChain.frame (h : FollowsChain num c es s) (hstep : s.act num l = some s')
    (hnone : Swarm.pulledCommands (l.delivers c) = []) :
    (s'.world.pages c).moves = (s.world.pages c).moves ∧
      (s'.world.pages c).target.latest = (s.world.pages c).target.latest := by
  have hafter := h.act hstep
  -- a move is logged for a pulled command only
  have hmoves : (l.delivers c).filterMap Swarm.Event.move? = [] := by
    have htargets := moves_pulled (l.delivers c)
    rw [hnone] at htargets
    exact List.map_eq_nil_iff.mp htargets
  refine ⟨?_, ?_⟩
  · rw [hafter.moves, h.moves, List.filterMap_append, hmoves, List.append_nil]
  · rw [hafter.target, h.target, Swarm.pulledCommands_append, hnone, List.append_nil]

/-- The chain of the world has made a run of calls. -/
theorem observed_chain {ls : List (ObservedAction C K)} (h : (observedSystem num).Run s ls s') :
    ∃ xs, s'.world.chain = Exec.run Swarm.dispatch s.world.chain xs := by
  refine h.invariant (I := fun s' => ∃ xs, s'.world.chain =
    Exec.run Swarm.dispatch s.world.chain xs) ⟨[], rfl⟩ ?_
  rintro s₁ l s₂ ⟨xs, hxs⟩ hstep
  obtain ⟨wl, -, -, hw, -⟩ | ⟨d, n, -, -, -, rfl⟩ | ⟨d, batch, r, -, -, -, rfl⟩ :=
    Observed.act_cases hstep
  · obtain ⟨ys, hys⟩ := World.chain_act hw
    exact ⟨xs ++ ys, by rw [Exec.run_append, ← hxs, hys]⟩
  · exact ⟨xs, hxs⟩
  · exact ⟨xs, hxs⟩

/-- **First in, first out, up to the pages.** Take any number of pages on a chain with any past.
Whatever the order in which flows go on, transactions are included, pages subscribe and blocks reach
them: the events delivered to a page are a segment of the log of the chain, the commands pulled in
it a segment of those that were ever enqueued. The moves the page has logged are those of these
events, each once and in their order, and its target is where the last of them says. A step that
delivers no pulled command to the page changes neither. -/
theorem moves_follow_queue {signer : Runtime.AccountId} {past : List (Swarm.Extrinsic Runtime)}
    {ls : List (ObservedAction C K)}
    (h : (observedSystem num).Run (Observed.opened signer (Swarm.run past)) ls s) (c : C) :
    (delivered c ls <:+: s.world.chain.events ∧
      Swarm.pulledCommands (delivered c ls) <:+: Swarm.enqueuedCommands s.world.chain.events ∧
      (s.world.pages c).moves = (delivered c ls).filterMap Swarm.Event.move? ∧
      (s.world.pages c).moves.map Prod.snd =
        (Swarm.pulledCommands (delivered c ls)).map decodedTarget ∧
      (s.world.pages c).target.latest.value =
        (Swarm.pulledCommands (delivered c ls)).getLast?.map (assigned num)) ∧
    ∀ l s', s.act num l = some s' → Swarm.pulledCommands (l.delivers c) = [] →
      (s'.world.pages c).moves = (s.world.pages c).moves ∧
      (s'.world.pages c).target.latest = (s.world.pages c).target.latest := by
  have hfollows := FollowsChain.run h c
  obtain ⟨xs, hxs⟩ := observed_chain h
  have hchain : s.world.chain = Swarm.run (past ++ xs) := by
    rw [hxs]
    exact (Exec.run_append _ past xs).symm
  have hsegment : delivered c ls <:+: s.world.chain.events := by
    rw [← hfollows.received]
    unfold Observed.received
    cases s.feeds c with
    | none => exact List.nil_infix
    | some r => exact r.read_infix _
  refine ⟨⟨hsegment, ?_, hfollows.moves, ?_, ?_⟩, fun l s' hstep => hfollows.frame hstep⟩
  · -- a segment of the log, whose commands were pulled in the order they were enqueued in
    have hfifo := Swarm.pulled_append_queue (past ++ xs)
    rw [← hchain] at hfifo
    rw [← hfifo]
    exact (hsegment.filterMap _).trans (List.prefix_append _ _).isInfix
  · rw [hfollows.moves, moves_pulled]
  · rw [hfollows.target]
    rfl

/-- **Agreement.** Two pages that have come equally far in the events of the chain, the second of
which subscribed no earlier: the moves of the second are the end of those of the first, and if there
are any, both pages have the same target, which a command that was pulled on the chain asked for. -/
theorem caught_up_agree {signer : Runtime.AccountId} {chain : Swarm.Storage Runtime}
    {ls : List (ObservedAction C K)}
    (h : (observedSystem num).Run (Observed.opened signer chain) ls s) {r q : Reader}
    (hc : s.feeds c = some r) (hd : s.feeds d = some q) (hupTo : r.upTo = q.upTo)
    (hstart : r.start ≤ q.start) :
    (s.world.pages d).moves <:+ (s.world.pages c).moves ∧
    ((s.world.pages d).moves ≠ [] → ∃ cmd ∈ Swarm.pulledCommands s.world.chain.events,
      (s.world.pages c).target.latest.value = some (assigned num cmd) ∧
      (s.world.pages d).target.latest.value = some (assigned num cmd)) := by
  have hfollowsC := FollowsChain.run h c
  have hfollowsD := FollowsChain.run h d
  have hsuffix : s.received d <:+ s.received c := by
    rw [received_of_feeds hc, received_of_feeds hd]
    exact Reader.read_suffix hupTo hstart _
  refine ⟨?_, ?_⟩
  · rw [hfollowsC.moves, hfollowsD.moves, ← hfollowsC.received, ← hfollowsD.received]
    exact hsuffix.filterMap _
  · intro hmoves
    -- the moves of the second page are one for each command
    have hpulled : Swarm.pulledCommands (s.received d) ≠ [] := by
      intro hnil
      have htargets := moves_pulled (s.received d)
      rw [hnil, hfollowsD.received, ← hfollowsD.moves] at htargets
      exact hmoves (List.map_eq_nil_iff.mp htargets)
    obtain ⟨cmd, hcmd⟩ := Option.ne_none_iff_exists'.mp (mt List.getLast?_eq_none_iff.mp hpulled)
    have hlast : (Swarm.pulledCommands (s.received c)).getLast? = some cmd := by
      obtain ⟨front, hfront⟩ : Swarm.pulledCommands (s.received d) <:+
          Swarm.pulledCommands (s.received c) := hsuffix.filterMap _
      rw [← hfront, List.getLast?_append_of_ne_nil _ hpulled, hcmd]
    have hlog : s.received d <:+: s.world.chain.events := by
      rw [received_of_feeds hd]
      exact q.read_infix _
    refine ⟨cmd, (hlog.filterMap _).subset (List.mem_of_getLast? hcmd), ?_, ?_⟩
    · rw [hfollowsC.target, ← hfollowsC.received]
      show (Swarm.pulledCommands (s.received c)).getLast?.map (assigned num) = _
      rw [hlast]
      rfl
    · rw [hfollowsD.target, ← hfollowsD.received]
      show (Swarm.pulledCommands (s.received d)).getLast?.map (assigned num) = _
      rw [hcmd]
      rfl

end Runs

/-- Robot `0` is registered, and pulls a location that was enqueued. -/
def onePull : List (Swarm.Extrinsic Runtime) :=
  [⟨.signed 0, .registerRobot (0 : UInt32)⟩,
    ⟨.signed 0, .enqueueCommand (.goToLocation ⟨10, 20⟩)⟩, ⟨.signed 0, .pullNext (0 : UInt32)⟩]

/-- Two pages subscribe, one to the block of the enqueue and one to that of the pull. -/
theorem observed_two : ∃ (s : Observed Bool ℝ) (ls : List (ObservedAction Bool ℝ)) (r q : Reader),
    (observedSystem JsNumber.toReal).Run (Observed.opened 0 (Swarm.run onePull)) ls s ∧
    s.feeds false = some r ∧ s.feeds true = some q ∧ r.upTo = q.upTo ∧ r.start ≤ q.start ∧
    s.received true = [.commandPulled (0 : UInt32) (.goToLocation ⟨10, 20⟩) (some ⟨10, 20⟩)] := by
  obtain ⟨s, ls, hrun, hfalse, htrue, hchain⟩ : ∃ (s : Observed Bool ℝ) (ls : _),
      (observedSystem JsNumber.toReal).Run (Observed.opened 0 (Swarm.run onePull)) ls s ∧
      s.feeds false = some (.fresh 0) ∧ s.feeds true = some (.fresh 1) ∧
      s.world.chain.events = [.commandEnqueued (.goToLocation ⟨10, 20⟩),
        .commandPulled (0 : UInt32) (.goToLocation ⟨10, 20⟩) (some ⟨10, 20⟩)] :=
    ⟨_, [.world (.page false .connect), .world (.page false .commit),
      .world (.page false .effects), .subscribe false 0, .world (.page true .connect),
      .world (.page true .commit), .world (.page true .effects), .subscribe true 1],
      .of_runAct rfl, rfl, rfl, rfl⟩
  have hfirst := hrun.concat (Observed.act_events JsNumber.toReal
    [.swarm (.commandEnqueued (.goToLocation ⟨10, 20⟩)), pulledEvent 10 20] hfalse
    (by rw [hchain]; exact List.prefix_rfl))
  have hsecond := hfirst.concat (Observed.act_events JsNumber.toReal [pulledEvent 10 20] (c := true)
    (r := .fresh 1) htrue
    (by show _ <+: s.world.chain.events.drop 1; rw [hchain]; exact List.prefix_rfl))
  refine ⟨_, _, (Reader.fresh 0).advance 2, (Reader.fresh 1).advance 1, hsecond, rfl, rfl, rfl,
    Nat.zero_le 1, ?_⟩
  show ((Reader.fresh 1).advance 1).read s.world.chain.events = _
  rw [hchain]
  rfl

theorem moves_follow_queue_one : ∃ (s : Observed Bool ℝ) (ls : List (ObservedAction Bool ℝ)),
    (observedSystem JsNumber.toReal).Run (Observed.opened 0 (Swarm.run onePull)) ls s ∧
    delivered true ls =
      [.commandPulled (0 : UInt32) (.goToLocation ⟨10, 20⟩) (some ⟨10, 20⟩)] ∧
    (delivered true ls <:+: s.world.chain.events ∧
      Swarm.pulledCommands (delivered true ls) <:+:
        Swarm.enqueuedCommands s.world.chain.events ∧
      (s.world.pages true).moves = (delivered true ls).filterMap Swarm.Event.move? ∧
      (s.world.pages true).moves.map Prod.snd =
        (Swarm.pulledCommands (delivered true ls)).map decodedTarget ∧
      (s.world.pages true).target.latest.value =
        (Swarm.pulledCommands (delivered true ls)).getLast?.map (assigned JsNumber.toReal)) ∧
    ∀ l s', s.act JsNumber.toReal l = some s' → Swarm.pulledCommands (l.delivers true) = [] →
      (s'.world.pages true).moves = (s.world.pages true).moves ∧
      (s'.world.pages true).target.latest = (s.world.pages true).target.latest := by
  obtain ⟨s, ls, r, q, hrun, -, -, -, -, hreceived⟩ := observed_two
  refine ⟨s, ls, hrun, ?_, moves_follow_queue hrun true⟩
  rw [← (FollowsChain.run hrun true).received, hreceived]

theorem caught_up_agree_one : ∃ s : Observed Bool ℝ,
    (s.world.pages true).moves ≠ [] ∧
    (s.world.pages true).moves <:+ (s.world.pages false).moves ∧
    ((s.world.pages true).moves ≠ [] → ∃ cmd ∈ Swarm.pulledCommands s.world.chain.events,
      (s.world.pages false).target.latest.value = some (assigned JsNumber.toReal cmd) ∧
      (s.world.pages true).target.latest.value = some (assigned JsNumber.toReal cmd)) := by
  obtain ⟨s, ls, r, q, hrun, hr, hq, hupTo, hstart, hreceived⟩ := observed_two
  refine ⟨s, ?_, caught_up_agree hrun hr hq hupTo hstart⟩
  rw [(FollowsChain.run hrun true).moves, ← (FollowsChain.run hrun true).received, hreceived]
  exact List.cons_ne_nil _ _

end SwarmBase
