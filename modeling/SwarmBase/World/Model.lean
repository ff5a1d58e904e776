import SwarmBase.Framework.Others
import SwarmBase.Pallet.History
import SwarmBase.Ui.Page
import Mathlib.Logic.Function.Basic

/-!
# Pages and the chain

Any number of pages on one chain. A page talks to the chain in flows: `registerRobot`, started by
the Register button, and `handleCanvasClick` with `commandPull`, started by a click on the canvas.
A flow runs in stretches between its awaits and callbacks; what it waits for in between is a
`Task`, with what the rest of the flow captured. Whatever is outstanding can go on at any time and
in any order, so a run of the world is any interleaving of the flows, of the steps of the pages
and of the inclusion of transactions.

The transactions of all pages are signed by one account, the development key of
`lib/polkadot.ts`. That a submission is refused, for its nonce or for anything else, is one of the
outcomes of `signAndSend`, and is left open; so is the order in which the pool is included.

Every change of a page is a list of page steps (`World.run_page`), and every change of the chain a
dispatched call (`World.run_chain`), so what was proved of the two alone holds here.
-/

namespace SwarmBase

open Framework

/-! ### Flows -/

/-- A transaction of a page, with what its status callback needs. The two transactions of a canvas
click carry the number of the click. -/
inductive Tx (K : Type) where
  | register (robotId : UInt32)
  | enqueue (click : ℕ) (command : Command Runtime) (closure : Closure K)
  | pull (click : ℕ) (robotId : UInt32)

/-- What a flow waits for, or a transaction on its way. -/
inductive Task (K : Type) where
  /-- `registerRobot` waits for the nonce. -/
  | nonce (robotId : UInt32)
  /-- A flow waits for `signAndSend`. -/
  | submit (tx : Tx K)
  /-- `registerRobot` goes on after `signAndSend`. -/
  | setRobots
  /-- The transaction is in the pool. -/
  | pool (tx : Tx K)
  /-- The status callback is to be told that the transaction is in a block. -/
  | inBlock (tx : Tx K) (error : Option (DispatchError Swarm.Error))
  /-- The status callback is to be told that the block is final. -/
  | finalized (tx : Tx K) (error : Option (DispatchError Swarm.Error))

variable {C K : Type}

def Tx.call : Tx K → Swarm.Call Runtime
  | .register robotId => .registerRobot robotId
  | .enqueue _ command _ => .enqueueCommand command
  | .pull _ robotId => .pullNext robotId

/-- What a stretch of a flow does: page updates, and what is outstanding after it. -/
abbrev Effect (K : Type) := List (PageAction K) × List (Task K)

/-- `registerRobot` up to its first await. The id is the length of the robots of the render; the
codec takes a missing length as zero and refuses one that is no `u32`. -/
def Closure.registerRobot (c : Closure K) : Effect K :=
  if !c.ready then ([], [])
  else
    -- of the render, not of the latest state
    let length := c.robots.bind RobotsState.length?
    match u32OfInt (length.getD 0 : ℕ) with
    | none => ([.setLoading true], [])
    | some id => ([.setLoading true, .updateEvents (.registering length)], [.nonce id])

theorem Closure.registerRobot_snd (c : Closure K) :
    c.registerRobot.2 = [] ∨ ∃ id, c.registerRobot.2 = [.nonce id] := by
  unfold Closure.registerRobot
  dsimp only
  -- whether the length is a `u32` is all that matters
  generalize u32OfInt _ = o
  cases c.ready with
  | false => exact Or.inl rfl
  | true =>
    cases o with
    | none => exact Or.inl rfl
    | some id => exact Or.inr ⟨id, rfl⟩

/-- `handleCanvasClick` up to its first await. A command that cannot be encoded is caught. -/
def Closure.handleCanvasClick (c : Closure K) (click : ℕ) (x y : ℤ) : Effect K :=
  if !c.ready then ([], [])
  else match encodeGoToLocation x y with
    | none => ([.setLoading true, .setLoading false], [])
    | some command => ([.setLoading true], [.submit (.enqueue click command c)])

/-- `commandPull` up to its await. It gives up if there are no robots, and throws if the robots
are not a list. -/
def Closure.commandPull (c : Closure K) (click : ℕ) : Effect K :=
  if !c.ready then ([], [])
  else match c.robots with
    | some (.list []) => ([], [])
    | some (.list (r :: _)) =>
      ([.updateEvents .sendingToRobots],
        (u32OfInt r.id).toList.map fun id => .submit (.pull click id))
    | _ => ([.updateEvents .sendingToRobots], [])

namespace Tx

/-- The status callbacks on a `dispatchError`. -/
def onError (error : DispatchError Swarm.Error) : Tx K → Effect K
  | .register _ => ([.updateEvents (.registerFailed error), .setLoading false], [])
  | .enqueue _ _ _ => ([.updateEvents (.commandFailed error), .setLoading false], [])
  | .pull _ _ =>
    ([.updateEvents .pullFailed, .updateEvents (.pullError error), .setLoading false], [])

/-- The status callbacks on `isFinalized`. -/
def onFinalized : Tx K → Effect K
  | .register _ => ([.updateEvents .registered, .setLoading false], [])
  | .enqueue click _ closure => closure.commandPull click
  | .pull _ _ => ([.updateEvents .finishedCommand, .setLoading false], [])

theorem onError_snd (error : DispatchError Swarm.Error) (tx : Tx K) :
    (tx.onError error).2 = [] := by
  cases tx <;> rfl

end Tx

/-- What happens when something outstanding goes on, given whether what it waited for succeeded.
A transaction in the pool goes on by being included only. -/
def Task.react : Task K → Bool → Option (Effect K)
  | .nonce id, true => some ([], [.submit (.register id)])
  | .nonce _, false => some ([], [])
  | .submit (.register id), true => some ([], [.pool (.register id), .setRobots])
  | .submit tx, true => some ([], [.pool tx])
  -- only `handleCanvasClick` catches
  | .submit (.enqueue _ _ _), false => some ([.setLoading false], [])
  | .submit _, false => some ([], [])
  | .setRobots, true => some ([.setRobots], [])
  | .inBlock tx (some e), true => some ((tx.onError e).1, [.finalized tx (some e)])
  | .inBlock tx none, true => some ([], [.finalized tx none])
  | .finalized tx (some e), true => some (tx.onError e)
  | .finalized tx none, true => some tx.onFinalized
  | _, _ => none

/-! ### The world -/

/-- A transaction that was included, with its outcome. -/
structure Inclusion (C K : Type) where
  client : C
  tx : Tx K
  error : Option (DispatchError Swarm.Error)

structure World (C K : Type) where
  /-- The account all pages sign with. -/
  signer : Runtime.AccountId
  chain : Swarm.Storage Runtime
  pages : C → Page K
  tasks : List (C × Task K)
  blocks : List (Inclusion C K)
  /-- The number of canvas clicks so far. -/
  clicks : ℕ

/-- The world when the pages are opened, on a chain in some state. -/
def World.opened (signer : Runtime.AccountId) (chain : Swarm.Storage Runtime) : World C K where
  signer := signer
  chain := chain
  pages _ := Page.initial
  tasks := []
  blocks := []
  clicks := 0

/-- What can happen in the world. -/
inductive WorldAction (C K : Type) where
  /-- A step of a page that is not part of a flow. -/
  | page (c : C) (a : PageAction K)
  | clickRegister (c : C)
  | clickCanvas (c : C) (x y : ℤ)
  /-- The `i`-th outstanding task goes on. -/
  | task (i : ℕ) (ok : Bool)
  /-- The `i`-th outstanding task is a transaction in the pool, and is included. -/
  | includeTx (i : ℕ)

/-- The page steps that are not part of a flow. -/
def PageAction.isOwn : PageAction K → Bool
  | .setRobots | .setLoading _ | .updateEvents _ => false
  | _ => true

/-- The error a call would fail with. -/
def Swarm.dispatchError (s : Swarm.Storage Runtime) (x : Swarm.Extrinsic Runtime) :
    Option (DispatchError Swarm.Error) :=
  match Exec.reply Swarm.dispatch s x with
  | .ok _ => none
  | .error e => some e

namespace World

section Steps

variable [DecidableEq C] [JsArith K]

/-- A stretch of a flow of the page `c`. -/
def perform (w : World C K) (c : C) (e : Effect K) : Option (World C K) :=
  (System.runAct Page.act (w.pages c) e.1).map fun p =>
    { w with
      pages := Function.update w.pages c p
      tasks := w.tasks ++ e.2.map fun t => (c, t) }

/-- The inclusion of a transaction of the page `c`, the `i`-th task. -/
def includeTx (w : World C K) (i : ℕ) (c : C) (tx : Tx K) : World C K :=
  let x : Swarm.Extrinsic Runtime := ⟨.signed w.signer, tx.call⟩
  let error := Swarm.dispatchError w.chain x
  { w with
    chain := Exec.next Swarm.dispatch w.chain x
    tasks := w.tasks.eraseIdx i ++ [(c, .inBlock tx error)]
    blocks := w.blocks ++ [⟨c, tx, error⟩] }

/-- The world after a step, if the step can be made. The Register button runs the handler of the
last render, and is disabled before the page is ready; the canvas runs the handler of the last
render whose effects have run. -/
def act (w : World C K) : WorldAction C K → Option (World C K)
  | .page c a => if a.isOwn then w.perform c ([a], []) else none
  | .clickRegister c =>
    if (w.pages c).mounted && (w.pages c).ready.rendered then
      w.perform c (w.pages c).closure.registerRobot
    else none
  | .clickCanvas c x y =>
    if (w.pages c).mounted then
      { w with clicks := w.clicks + 1 }.perform c
        ((w.pages c).onClickRef.handleCanvasClick w.clicks x y)
    else none
  | .task i ok =>
    w.tasks[i]?.bind fun (c, t) =>
      (t.react ok).bind fun e => { w with tasks := w.tasks.eraseIdx i }.perform c e
  | .includeTx i =>
    match w.tasks[i]? with
    | some (c, .pool tx) => some (w.includeTx i c tx)
    | _ => none

end Steps

end World

/-- The world from when the pages are opened, on a chain in any state. -/
def worldSystem (C K : Type) [DecidableEq C] [JsArith K] : System (World C K) (WorldAction C K) :=
  .ofAct (fun w => w = World.opened w.signer w.chain) World.act

/-! ### What a step does -/

/-- The ways in which something outstanding goes on, one for each line of `Task.react`. -/
inductive Task.Reacts : Task K → Bool → Effect K → Prop where
  | nonce (id : UInt32) : Reacts (.nonce id) true ([], [.submit (.register id)])
  | noNonce (id : UInt32) : Reacts (.nonce id) false ([], [])
  | register (id : UInt32) :
      Reacts (.submit (.register id)) true ([], [.pool (.register id), .setRobots])
  | submit (tx : Tx K) (htx : ∀ id, tx ≠ .register id) : Reacts (.submit tx) true ([], [.pool tx])
  | enqueueRefused (click : ℕ) (command : Command Runtime) (k : Closure K) :
      Reacts (.submit (.enqueue click command k)) false ([.setLoading false], [])
  | refused (tx : Tx K) (htx : ∀ click command k, tx ≠ .enqueue click command k) :
      Reacts (.submit tx) false ([], [])
  | setRobots : Reacts .setRobots true ([.setRobots], [])
  | inBlock (tx : Tx K) : Reacts (.inBlock tx none) true ([], [.finalized tx none])
  | inBlockError (tx : Tx K) (error : DispatchError Swarm.Error) :
      Reacts (.inBlock tx (some error)) true ((tx.onError error).1, [.finalized tx (some error)])
  | finalized (tx : Tx K) : Reacts (.finalized tx none) true tx.onFinalized
  | finalizedError (tx : Tx K) (error : DispatchError Swarm.Error) :
      Reacts (.finalized tx (some error)) true (tx.onError error)

/-- **Inversion, tasks.** -/
theorem Task.reacts {t : Task K} {ok : Bool} {e : Effect K} (h : t.react ok = some e) :
    t.Reacts ok e := by
  unfold Task.react at h
  split at h
  -- the last line of `react` has no effect to speak of
  all_goals first | obtain rfl := Option.some.inj h | cases h
  · exact .nonce _
  · exact .noNonce _
  · exact .register _
  · exact .submit _ (by assumption)
  · exact .enqueueRefused _ _ _
  · exact .refused _ (by assumption)
  · exact .setRobots
  · exact .inBlockError _ _
  · exact .inBlock _
  · exact .finalizedError _ _
  · exact .finalized _

/-! ### What the flows ask of a page -/

/-- The updates of a page that flows ask for. Moves are logged by subscriptions only. -/
def PageAction.isFlowUpdate : PageAction K → Bool
  | .setRobots | .setLoading _ => true
  | .updateEvents (.moving _ _ _) => false
  | .updateEvents _ => true
  | _ => false

/-- All that a stretch does to the page is such an update. -/
def Effect.OfFlow (e : Effect K) : Prop := ∀ a ∈ e.1, a.isFlowUpdate = true

theorem Closure.ofFlow_registerRobot (k : Closure K) : Effect.OfFlow k.registerRobot := by
  unfold Effect.OfFlow Closure.registerRobot
  dsimp only
  generalize u32OfInt _ = o
  cases k.ready <;> cases o <;> simp [PageAction.isFlowUpdate]

theorem Closure.ofFlow_handleCanvasClick (k : Closure K) (click : ℕ) (x y : ℤ) :
    Effect.OfFlow (k.handleCanvasClick click x y) := by
  unfold Effect.OfFlow Closure.handleCanvasClick
  generalize encodeGoToLocation x y = o
  cases k.ready <;> cases o <;> simp [PageAction.isFlowUpdate]

theorem Closure.ofFlow_commandPull (k : Closure K) (click : ℕ) :
    Effect.OfFlow (k.commandPull click) := by
  unfold Effect.OfFlow Closure.commandPull
  split_ifs
  · exact nofun
  · split <;> simp [PageAction.isFlowUpdate]

theorem Tx.ofFlow_onError (error : DispatchError Swarm.Error) (tx : Tx K) :
    Effect.OfFlow (tx.onError error) := by
  unfold Effect.OfFlow
  cases tx <;> simp [Tx.onError, PageAction.isFlowUpdate]

theorem Tx.ofFlow_onFinalized (tx : Tx K) : Effect.OfFlow tx.onFinalized := by
  cases tx with
  | enqueue click command k => exact k.ofFlow_commandPull click
  | register | pull =>
    intro a ha
    obtain rfl | rfl := List.mem_pair.mp ha <;> rfl

theorem Task.Reacts.ofFlow {t : Task K} {ok : Bool} {e : Effect K} (h : t.Reacts ok e) :
    e.OfFlow := by
  cases h with
  | nonce | noNonce | register | submit | refused | inBlock => exact nofun
  | enqueueRefused | setRobots =>
    unfold Effect.OfFlow
    simp [PageAction.isFlowUpdate]
  | inBlockError tx error => exact tx.ofFlow_onError error
  | finalizedError tx error => exact tx.ofFlow_onError error
  | finalized tx => exact tx.ofFlow_onFinalized

namespace World

section After

variable [DecidableEq C]

/-- The world after a stretch of a flow of the page `c`, which is now `p`: `kept` is what else is
outstanding, `ts` what the flow left outstanding. -/
def after (w : World C K) (c : C) (p : Page K) (kept : List (C × Task K)) (ts : List (Task K))
    (clicks : ℕ) : World C K :=
  { w with
    pages := Function.update w.pages c p
    tasks := kept ++ ts.map fun t => (c, t)
    clicks := clicks }

variable {w : World C K} {c d : C} {p : Page K} {kept : List (C × Task K)} {ts : List (Task K)}
  {clicks : ℕ}

@[simp] theorem after_pages_self : (w.after c p kept ts clicks).pages c = p := by
  unfold after
  exact Function.update_self c p w.pages

theorem after_pages_of_ne (h : d ≠ c) : (w.after c p kept ts clicks).pages d = w.pages d := by
  unfold after
  exact Function.update_of_ne h p w.pages

@[simp] theorem after_tasks :
    (w.after c p kept ts clicks).tasks = kept ++ ts.map fun t => (c, t) := rfl

/-- What is counted among the tasks after a stretch of a flow. -/
theorem countP_tasks_after (q : C × Task K → Bool) :
    (w.after c p kept ts clicks).tasks.countP q =
      kept.countP q + ts.countP fun t => q (c, t) := by
  rw [after_tasks, List.countP_append, List.countP_map]
  rfl

/-- What the tasks weigh after a stretch of a flow. -/
theorem sum_tasks_after (f : C × Task K → ℕ) :
    ((w.after c p kept ts clicks).tasks.map f).sum =
      (kept.map f).sum + (ts.map fun t => f (c, t)).sum := by
  rw [after_tasks, List.map_append, List.sum_append, List.map_map]
  rfl

end After

/-- What is counted among the tasks after an inclusion: the transaction of the pool is gone, and
its callback is to be told. -/
theorem countP_tasks_includeTx {w : World C K} {i : ℕ} {c : C} {tx : Tx K}
    (hi : w.tasks[i]? = some (c, .pool tx)) (q : C × Task K → Bool) :
    (w.includeTx i c tx).tasks.countP q + (if q (c, .pool tx) then 1 else 0) =
      w.tasks.countP q + if q (c, .inBlock tx
        (Swarm.dispatchError w.chain ⟨.signed w.signer, tx.call⟩)) then 1 else 0 := by
  unfold includeTx
  dsimp only
  rw [List.countP_append, List.countP_singleton, ← countP_eraseIdx hi q]
  exact Nat.add_right_comm _ _ _

/-- What the tasks weigh after an inclusion. -/
theorem sum_tasks_includeTx {w : World C K} {i : ℕ} {c : C} {tx : Tx K}
    (hi : w.tasks[i]? = some (c, .pool tx)) (f : C × Task K → ℕ) :
    ((w.includeTx i c tx).tasks.map f).sum + f (c, .pool tx) =
      (w.tasks.map f).sum + f (c, .inBlock tx
        (Swarm.dispatchError w.chain ⟨.signed w.signer, tx.call⟩)) := by
  unfold includeTx
  dsimp only
  rw [List.map_append, List.sum_append, List.map_singleton, List.sum_singleton,
    ← sum_map_eraseIdx hi f]
  exact Nat.add_right_comm _ _ _

theorem countP_blocks_includeTx (w : World C K) (i : ℕ) (c : C) (tx : Tx K)
    (q : Inclusion C K → Bool) :
    (w.includeTx i c tx).blocks.countP q = w.blocks.countP q +
      if q ⟨c, tx, Swarm.dispatchError w.chain ⟨.signed w.signer, tx.call⟩⟩ then 1 else 0 := by
  unfold includeTx
  dsimp only
  rw [List.countP_append, List.countP_singleton]

variable [DecidableEq C] [JsArith K] {w w' : World C K}

/-- The stretch of a flow, or the page step, that a step of the world runs for a page: what it
does, which of the outstanding tasks are kept, and the number of clicks after it. -/
inductive Stretch (w : World C K) :
    WorldAction C K → C → Effect K → List (C × Task K) → ℕ → Prop where
  | page (c : C) (a : PageAction K) (ha : a.isOwn = true) :
      Stretch w (.page c a) c ([a], []) w.tasks w.clicks
  | clickRegister (c : C) :
      Stretch w (.clickRegister c) c (w.pages c).closure.registerRobot w.tasks w.clicks
  | clickCanvas (c : C) (x y : ℤ) :
      Stretch w (.clickCanvas c x y) c ((w.pages c).onClickRef.handleCanvasClick w.clicks x y)
        w.tasks (w.clicks + 1)
  | task (i : ℕ) (ok : Bool) (c : C) (t : Task K) (e : Effect K) (ht : w.tasks[i]? = some (c, t))
      (he : t.react ok = some e) :
      Stretch w (.task i ok) c e (w.tasks.eraseIdx i) w.clicks

omit [DecidableEq C] [JsArith K] in
/-- What a stretch does to its page: the step of the page that it is, or updates of a flow. -/
theorem Stretch.page_or_flow {l : WorldAction C K} {c : C} {e : Effect K}
    {kept : List (C × Task K)} {clicks : ℕ} (h : Stretch w l c e kept clicks) :
    (∃ a, l = .page c a ∧ e = ([a], [])) ∨ e.OfFlow := by
  cases h with
  | page _ a => exact Or.inl ⟨a, rfl, rfl⟩
  | clickRegister => exact Or.inr (Closure.ofFlow_registerRobot _)
  | clickCanvas _ x y => exact Or.inr (Closure.ofFlow_handleCanvasClick _ _ x y)
  | task i ok _ t _ ht he => exact Or.inr (Task.reacts he).ofFlow

/-- **Inversion, the world.** A step is a stretch of a flow, or an inclusion. -/
theorem act_cases {l : WorldAction C K} (h : w.act l = some w') :
    (∃ c e kept clicks p, Stretch w l c e kept clicks ∧
      System.runAct Page.act (w.pages c) e.1 = some p ∧
      w' = w.after c p kept e.2 clicks) ∨
    (∃ i c tx, l = .includeTx i ∧ w.tasks[i]? = some (c, .pool tx) ∧ w' = w.includeTx i c tx) := by
  unfold act at h
  cases l with
  | page c a =>
    dsimp only at h
    split_ifs at h with ha
    obtain ⟨p, hp, rfl⟩ := Option.map_eq_some_iff.mp h
    exact Or.inl ⟨c, _, _, _, p, .page c a ha, hp, rfl⟩
  | clickRegister c =>
    dsimp only at h
    split_ifs at h
    obtain ⟨p, hp, rfl⟩ := Option.map_eq_some_iff.mp h
    exact Or.inl ⟨c, _, _, _, p, .clickRegister c, hp, rfl⟩
  | clickCanvas c x y =>
    dsimp only at h
    split_ifs at h
    obtain ⟨p, hp, rfl⟩ := Option.map_eq_some_iff.mp h
    exact Or.inl ⟨c, _, _, _, p, .clickCanvas c x y, hp, rfl⟩
  | task i ok =>
    obtain ⟨⟨c, t⟩, ht, h⟩ := Option.bind_eq_some_iff.mp h
    obtain ⟨e, he, h⟩ := Option.bind_eq_some_iff.mp h
    obtain ⟨p, hp, rfl⟩ := Option.map_eq_some_iff.mp h
    exact Or.inl ⟨c, e, _, _, p, .task i ok c t e ht he, hp, rfl⟩
  | includeTx i =>
    dsimp only at h
    split at h
    · rename_i c tx ht
      exact Or.inr ⟨i, c, tx, rfl, ht, (Option.some.inj h).symm⟩
    · cases h

/-- **Pages.** What happens to a page in the world is a run of the page. -/
theorem run_page {ls : List (WorldAction C K)} (h : (worldSystem C K).Run w ls w') (c : C) :
    ∃ as, (pageSystem K).Run (w.pages c) as (w'.pages c) := by
  have hsim : ∃ as p, (pageSystem K).Run (w.pages c) as p ∧ p = w'.pages c := by
    refine h.simulate (R := fun w p => p = w.pages c) rfl ?_
    -- a step is followed by the page steps of its stretch, if it is one of this page
    rintro w l w' _ rfl hstep
    obtain ⟨d, e, kept, clicks, p, -, hp, rfl⟩ | ⟨i, d, tx, -, -, rfl⟩ := act_cases hstep
    · by_cases hcd : c = d
      · subst hcd
        exact ⟨e.1, p, .of_runAct hp, after_pages_self.symm⟩
      · exact ⟨[], _, .nil _, (after_pages_of_ne hcd).symm⟩
    · exact ⟨[], _, .nil _, rfl⟩
  obtain ⟨as, p, hrun, rfl⟩ := hsim
  exact ⟨as, hrun⟩

/-- **Chain.** What happens to the chain in the world is a run of dispatched calls. -/
theorem run_chain {ls : List (WorldAction C K)} (h : (worldSystem C K).Run w ls w') :
    ∃ xs, w'.chain = Exec.run Swarm.dispatch w.chain xs := by
  refine h.induction (P := fun _ w' => ∃ xs, w'.chain = Exec.run Swarm.dispatch w.chain xs)
    ⟨[], rfl⟩ ?_
  -- only an inclusion adds a call
  rintro ls w' l w'' - ⟨xs, hxs⟩ hstep
  rcases act_cases hstep with ⟨d, e, kept, clicks, p, -, -, rfl⟩ | ⟨i, d, tx, -, -, rfl⟩
  · exact ⟨xs, hxs⟩
  · refine ⟨xs ++ [⟨.signed w'.signer, tx.call⟩], ?_⟩
    rw [Exec.run_concat, ← hxs]
    rfl

omit [DecidableEq C] [JsArith K] in
/-- The outcome of an inclusion. -/
theorem include_cases (s : Swarm.Storage Runtime) (who : Runtime.AccountId)
    (call : Swarm.Call Runtime) :
    (∃ s', Swarm.Accepts s call s' ∧ Exec.next Swarm.dispatch s ⟨.signed who, call⟩ = s' ∧
      Swarm.dispatchError s ⟨.signed who, call⟩ = none) ∨
    (∃ e, Swarm.Refuses s ⟨.signed who, call⟩ e ∧
      Exec.next Swarm.dispatch s ⟨.signed who, call⟩ = s ∧
      Swarm.dispatchError s ⟨.signed who, call⟩ = some e) := by
  unfold Swarm.dispatchError
  rcases Swarm.dispatch_cases s ⟨.signed who, call⟩ with ⟨_, s', -, hacc, h⟩ | ⟨e, href, h⟩
  · rw [Exec.reply_ok h, Exec.next_ok h]
    exact Or.inl ⟨s', hacc, rfl, rfl⟩
  · rw [Exec.reply_error h, Exec.next_error h]
    exact Or.inr ⟨e, href, rfl, rfl⟩

omit [DecidableEq C] [JsArith K] in
/-- A registration that is included succeeds. -/
theorem include_register (s : Swarm.Storage Runtime) (who : Runtime.AccountId) (id : UInt32) :
    id ∈ (Exec.next Swarm.dispatch s ⟨.signed who, .registerRobot id⟩).registeredRobots ∧
      Swarm.dispatchError s ⟨.signed who, .registerRobot id⟩ = none := by
  rcases include_cases s who (.registerRobot id) with ⟨s', hacc, hnext, herror⟩ | ⟨e, href, -, -⟩
  · cases hacc
    rw [hnext]
    exact ⟨Finset.mem_insert_self _ _, herror⟩
  · cases href with
    | badOrigin _ ho => exact absurd rfl (ho who)

omit [DecidableEq C] [JsArith K] in
/-- No call unregisters a robot. -/
theorem registered_subset_include (s : Swarm.Storage Runtime) (who : Runtime.AccountId)
    (call : Swarm.Call Runtime) : s.registeredRobots ⊆
      (Exec.next Swarm.dispatch s ⟨.signed who, call⟩).registeredRobots := by
  rcases include_cases s who call with ⟨s', hacc, hnext, -⟩ | ⟨e, -, hnext, -⟩
  · rw [hnext]
    cases hacc with
    | registerRobot r => exact Finset.subset_insert _ _
    | enqueueCommand => exact Finset.Subset.refl _
    | pullNext => exact Finset.Subset.refl _
  · rw [hnext]

end World

end SwarmBase
