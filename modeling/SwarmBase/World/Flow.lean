import SwarmBase.World.Registration

/-!
# Flows that fail

One click on the Register button or on the canvas and what follows from it, on a page on which no
other flow is under way. The page does everything else in between, the promises of the flow
resolve or reject, and the transactions are included with any outcome.

`registerRobot` and `commandPull` have no `try`: where they stop early, `loading` stays set. What
`registerRobot` does after `signAndSend` does not depend on the outcome of the transaction: the
robot is appended even if the transaction fails.

* `FailurePoint` — where a flow can fail; `Flow.failure` records where it did;
* `Flow.Stage` — the invariant: how far the flow is, and what it has done to the page so far;
* `failed_flow_restored_iff` — the failures after which the page is as it was;
* `rejected_nonce_keeps_loading` — one after which it is not.
-/

namespace SwarmBase

open Framework

variable {K : Type}

/-! ### Failures -/

/-- The three transactions of the page. -/
inductive TxKind where
  | register
  | enqueue
  | pull
  deriving DecidableEq

def Tx.kind : Tx K → TxKind
  | .register _ => .register
  | .enqueue _ _ _ => .enqueue
  | .pull _ _ => .pull

/-- Where a flow can fail. -/
inductive FailurePoint where
  /-- The argument of a transaction cannot be encoded. -/
  | argument (tx : TxKind)
  /-- The nonce query rejects. -/
  | nonce
  /-- `signAndSend` rejects. -/
  | signAndSend (tx : TxKind)
  /-- The status callback reports a `dispatchError`. -/
  | dispatchError (tx : TxKind)
  /-- `commandPull` finds no robots. -/
  | noRobots
  deriving DecidableEq

/-- The failures with a handler that is enough: the `catch` of `handleCanvasClick`, and the
`dispatchError` branches of its two transactions. That of `registerRobot` resets `loading` only. -/
def FailurePoint.isHandled : FailurePoint → Bool
  | .argument .enqueue | .signAndSend .enqueue => true
  | .dispatchError .enqueue | .dispatchError .pull => true
  | _ => false

/-- The encoding of an argument of a transaction throws if it is refused. -/
def FailurePoint.ofEncoded {α : Type} (tx : TxKind) : Option α → Option FailurePoint
  | none => some (.argument tx)
  | some _ => none

namespace Closure

/-- Whether `registerRobot` fails before its first await. -/
def registerFailure (k : Closure K) : Option FailurePoint :=
  if !k.ready then none
  else FailurePoint.ofEncoded .register (u32OfInt ((k.robots.bind RobotsState.length?).getD 0 : ℕ))

/-- Whether `handleCanvasClick` fails before its first await. -/
def clickFailure (k : Closure K) (x y : ℤ) : Option FailurePoint :=
  if !k.ready then none
  else FailurePoint.ofEncoded .enqueue (encodeGoToLocation x y)

/-- Whether `commandPull` fails before its await. -/
def pullFailure (k : Closure K) : Option FailurePoint :=
  if !k.ready then none
  else match k.robots with
    | some (.list []) => some .noRobots
    | some (.list (r :: _)) => FailurePoint.ofEncoded .pull (u32OfInt r.id)
    | _ => some (.argument .pull)

end Closure

/-- Whether the flow fails when something outstanding goes on. -/
def Task.failure : Task K → Bool → Option FailurePoint
  | .nonce _, false => some .nonce
  | .submit tx, false => some (.signAndSend tx.kind)
  | .inBlock tx (some _), true => some (.dispatchError tx.kind)
  | .finalized tx (some _), true => some (.dispatchError tx.kind)
  | .finalized (.enqueue _ _ k) none, true => k.pullFailure
  | _, _ => none

/-! ### Flows -/

/-- A page with one flow: what the flow waits for, and where it has failed, if it has. -/
structure Flow (K : Type) where
  page : Page K
  tasks : List (Task K)
  failure : Option FailurePoint

/-- The clicks that start a flow; the ones on the canvas are numbered. -/
inductive Click where
  | register
  | canvas (click : ℕ) (x y : ℤ)

inductive FlowAction (K : Type) where
  /-- A step of the page that is not one of the flow. -/
  | page (a : PageAction K)
  /-- The `i`-th task goes on. -/
  | task (i : ℕ) (ok : Bool)
  /-- The `i`-th task is a transaction in the pool, and is included with some outcome. -/
  | includeTx (i : ℕ) (error : Option (DispatchError Swarm.Error))

/-- Only flows set `loading`, and append robots. -/
def PageAction.isOfFlow : PageAction K → Bool
  | .setRobots | .setLoading _ => true
  | _ => false

namespace Flow

/-- What a click does before the first await, and whether it fails there. -/
def onClick (p : Page K) : Click → Option (Effect K × Option FailurePoint)
  | .register =>
    if p.mounted && p.ready.rendered then
      some (p.closure.registerRobot, p.closure.registerFailure)
    else none
  | .canvas click x y =>
    if p.mounted then
      some (p.onClickRef.handleCanvasClick click x y, p.onClickRef.clickFailure x y)
    else none

variable [JsArith K]

/-- The flow a click starts, if the page takes the click. -/
def start (p : Page K) (c : Click) : Option (Flow K) :=
  (onClick p c).bind fun (e, failure) =>
    (System.runAct Page.act p e.1).map fun q => ⟨q, e.2, failure⟩

/-- The flow after a step, if the step can be made. What failed first is what is recorded. -/
def act (s : Flow K) : FlowAction K → Option (Flow K)
  | .page a => if a.isOfFlow then none else (s.page.act a).map fun p => { s with page := p }
  | .task i ok =>
    s.tasks[i]?.bind fun t =>
      (t.react ok).bind fun e =>
        (System.runAct Page.act s.page e.1).map fun p =>
          ⟨p, s.tasks.eraseIdx i ++ e.2, s.failure.or (t.failure ok)⟩
  | .includeTx i error =>
    match s.tasks[i]? with
    | some (.pool tx) => some { s with tasks := s.tasks.eraseIdx i ++ [.inBlock tx error] }
    | _ => none

end Flow

/-- A page from a click on, until the next. -/
def flowSystem (K : Type) [JsArith K] : System (Flow K) (FlowAction K) :=
  .ofAct (fun s => ∃ p c, Flow.start p c = some s) Flow.act

/-- The condition on the steps of a run: the ticks keep the robots. -/
def Flow.TicksKeep [JsArith K] (s : Flow K) : FlowAction K → Prop
  | .page a => KeepsRobots s.page a
  | _ => True

/-! ### Robot ids and `loading` -/

/-- The ids of the robots, in order, if the state is a list. -/
def RobotsState.ids? : RobotsState K → Option (List ℕ)
  | .list rs => some (rs.map Robot.id)
  | .robot _ => none

/-- The ids of the robots of the page, with all updates so far. -/
def Page.robotIds (p : Page K) : Option (List ℕ) := p.robots.latest.value.bind RobotsState.ids?

/-- The page `q` is as `p` was, as far as a flow is concerned: the robots are a list, of the same
ids in the same order, and `loading` is false. -/
def Restored (p q : Page K) : Prop :=
  ∃ ids, p.robotIds = some ids ∧ q.robotIds = some ids ∧ q.loading.latest = false

/-- What a page step does to `loading`. -/
def PageAction.loadingAfter (loading : Bool) : PageAction K → Bool
  | .setLoading b => b
  | _ => loading

namespace Page

variable [JsArith K] {p q : Page K} {a : PageAction K}

theorem robotIds_setRobots (p : Page K) :
    p.setRobots.robotIds = p.robotIds.map fun ids => ids ++ [ids.length] := by
  unfold robotIds setRobots RobotsCell.append
  rw [Hook.latest_update]
  dsimp only
  cases p.robots.latest.value with
  | none => rfl
  | some s =>
    cases s with
    | robot r => rfl
    | list rs =>
      change some ((rs ++ [newRobot rs.length]).map Robot.id) =
        some (rs.map Robot.id ++ [(rs.map Robot.id).length])
      rw [List.map_append, List.length_map]
      rfl

theorem robotIds_tick {t : Timer K} (ht : p.timer = some t) (hkeeps : TickKeeps p) :
    (p.tick t).robotIds = p.robotIds := by
  unfold robotIds
  rw [Page.latest_tick]
  unfold RobotsCell.move
  cases hval : p.robots.latest.value with
  | none => rfl
  | some s =>
    cases s with
    | robot r =>
      change (updater t p.robotsRef (.robot r)).bind RobotsState.ids? = none
      rw [Page.updater_robot]
      rfl
    | list rs =>
      -- `directSeek` keeps a list of one robot that is on its way, the other two keep every list
      have hkept : ∃ rs', updater t p.robotsRef (.list rs) = some (.list rs') ∧
          rs'.map Robot.id = rs.map Robot.id := by
        refine (updater_map_id_iff t p.robotsRef rs).mpr fun hsingle => ?_
        obtain ⟨r, hr, hat⟩ := hkeeps t ht hsingle
        rw [hval] at hr
        exact ⟨r, RobotsState.list.inj (Option.some.inj hr), hat⟩
      obtain ⟨rs', heq, hids⟩ := hkept
      change (updater t p.robotsRef (.list rs)).bind RobotsState.ids? = some (rs.map Robot.id)
      rw [heq]
      exact congrArg some hids

/-- Only the end of a registration changes the ids, as long as the ticks keep the robots. -/
theorem robotIds_act (ha : p.act a = some q) (hne : a.isSetRobots = false)
    (hG : KeepsRobots p a) : q.robotIds = p.robotIds := by
  cases a with
  | connect | onMoveCommand | setSwarmType | setLoading | updateEvents =>
    obtain rfl := Option.some.inj ha
    rfl
  | setRobots => cases hne
  | tick =>
    obtain ⟨t, ht, rfl⟩ := Page.act_tick_iff.mp ha
    exact robotIds_tick ht (hG rfl)
  | commit | effects =>
    obtain ⟨hrobots, -⟩ := Page.latest_of_react ha (by simp)
    unfold robotIds
    rw [hrobots]

theorem loading_act (ha : p.act a = some q) :
    q.loading.latest = a.loadingAfter p.loading.latest := by
  cases a with
  | connect | onMoveCommand | setSwarmType | setRobots | updateEvents =>
    obtain rfl := Option.some.inj ha
    rfl
  | setLoading b =>
    obtain rfl := Option.some.inj ha
    exact Hook.latest_update _ _
  | tick =>
    obtain ⟨t, -, rfl⟩ := Page.act_tick_iff.mp ha
    rfl
  | commit | effects => exact (Page.latest_of_react ha (by simp)).2

/-- A stretch of a flow: the ids, if it appends nothing and does not tick, and `loading`. -/
theorem runAct_frame {as : List (PageAction K)} (h : System.runAct Page.act p as = some q) :
    (as.countP PageAction.isSetRobots = 0 → (∀ a ∈ as, a ≠ .tick) → q.robotIds = p.robotIds) ∧
      q.loading.latest = as.foldl PageAction.loadingAfter p.loading.latest := by
  induction as generalizing p with
  | nil =>
    obtain rfl := Option.some.inj h
    exact ⟨fun _ _ => rfl, rfl⟩
  | cons a as ih =>
    obtain ⟨p₁, ha, hrest⟩ := Option.bind_eq_some_iff.mp h
    obtain ⟨hids, hloading⟩ := ih hrest
    refine ⟨?_, ?_⟩
    · intro hnone htick
      obtain ⟨hfirst, hothers⟩ := List.forall_mem_cons.mp (List.countP_eq_zero.mp hnone)
      obtain ⟨hne, hnes⟩ := List.forall_mem_cons.mp htick
      have hstep : p₁.robotIds = p.robotIds :=
        robotIds_act ha (Bool.eq_false_iff.mpr hfirst) fun htick => absurd htick hne
      rw [hids (List.countP_eq_zero.mpr hothers) hnes, hstep]
    · rw [hloading, loading_act ha, List.foldl_cons]

end Page

/-! ### How far a flow is -/

/-- `registerRobot` appends the robot all the same. -/
def FailurePoint.appends : FailurePoint → Bool
  | .dispatchError .register => true
  | _ => false

theorem FailurePoint.appends_eq_false {f : FailurePoint} (h : f.isHandled = true) :
    f.appends = false := by
  cases f with
  | argument | nonce | signAndSend | noRobots => rfl
  | dispatchError tx =>
    cases tx with
    | register => cases h
    | enqueue | pull => rfl

/-- How far a flow is, apart from the robot it may still append: the other task it waits for, if
any, where it has failed, if it has, what `loading` is, and whether a registration was sent. -/
inductive Flow.Progress : List (Task K) → Option FailurePoint → Bool → Bool → Prop where
  | nonce (id : UInt32) : Progress [.nonce id] none true false
  | submit (tx : Tx K) : Progress [.submit tx] none true false
  | pool (tx : Tx K) : Progress [.pool tx] none true (tx.kind = .register)
  | inBlock (tx : Tx K) (error : Option (DispatchError Swarm.Error)) :
      Progress [.inBlock tx error] none true (tx.kind = .register)
  | finalized (tx : Tx K) : Progress [.finalized tx none] none true (tx.kind = .register)
  | finalizedError (tx : Tx K) (error : DispatchError Swarm.Error) :
      Progress [.finalized tx (some error)] (some (.dispatchError tx.kind)) false
        (tx.kind = .register)
  | failed (f : FailurePoint) : Progress [] (some f) (!f.isHandled && !f.appends) f.appends
  | done (loading sent : Bool) : Progress [] none loading sent

namespace Flow

/-- A flow waits for one thing, apart from the end of a registration. -/
theorem Progress.eq_singleton {main : List (Task K)} {failure : Option FailurePoint}
    {loading sent : Bool} (h : Progress main failure loading sent) {t : Task K} (ht : t ∈ main) :
    main = [t] ∧ t.isSetRobots = false := by
  cases h with
  | failed | done => cases ht
  | nonce | submit | pool | inBlock | finalized | finalizedError =>
    obtain rfl := List.mem_singleton.mp ht
    exact ⟨rfl, rfl⟩

/-! ### Stretches -/

theorem progress_registerRobot (k : Closure K) (loading : Bool) :
    Progress k.registerRobot.2 k.registerFailure
      (k.registerRobot.1.foldl PageAction.loadingAfter loading) false := by
  unfold Closure.registerRobot Closure.registerFailure
  dsimp only
  generalize u32OfInt _ = o
  cases k.ready with
  | false => exact .done loading false
  | true =>
    cases o with
    | none => exact .failed (.argument .register)
    | some id => exact .nonce id

theorem progress_handleCanvasClick (k : Closure K) (click : ℕ) (x y : ℤ) (loading : Bool) :
    Progress (k.handleCanvasClick click x y).2 (k.clickFailure x y)
      ((k.handleCanvasClick click x y).1.foldl PageAction.loadingAfter loading) false := by
  unfold Closure.handleCanvasClick Closure.clickFailure
  generalize encodeGoToLocation x y = o
  cases k.ready with
  | false => exact .done loading false
  | true =>
    cases o with
    | none => exact .failed (.argument .enqueue)
    | some command => exact .submit (.enqueue click command k)

/-- The ends of `commandPull`: the page is not ready, there are no robots, the first of them has
no id that can be sent, or the pull is submitted. -/
theorem commandPull_cases (k : Closure K) (click : ℕ) :
    (k.commandPull click = ([], []) ∧ k.pullFailure = none) ∨
    (k.commandPull click = ([], []) ∧ k.pullFailure = some .noRobots) ∨
    (k.commandPull click = ([.updateEvents .sendingToRobots], []) ∧
      k.pullFailure = some (.argument .pull)) ∨
    ∃ id, k.commandPull click = ([.updateEvents .sendingToRobots], [.submit (.pull click id)]) ∧
      k.pullFailure = none := by
  unfold Closure.commandPull Closure.pullFailure
  -- in the order of the guards of the source
  cases k.ready with
  | false => exact Or.inl ⟨rfl, rfl⟩
  | true =>
    rw [Bool.not_true, if_neg Bool.false_ne_true, if_neg Bool.false_ne_true]
    cases k.robots with
    | none => exact Or.inr (Or.inr (Or.inl ⟨rfl, rfl⟩))
    | some s =>
      cases s with
      | robot r => exact Or.inr (Or.inr (Or.inl ⟨rfl, rfl⟩))
      | list rs =>
        cases rs with
        | nil => exact Or.inr (Or.inl ⟨rfl, rfl⟩)
        | cons r rest =>
          dsimp only
          generalize u32OfInt r.id = o
          cases o with
          | none => exact Or.inr (Or.inr (Or.inl ⟨rfl, rfl⟩))
          | some id => exact Or.inr (Or.inr (Or.inr ⟨id, rfl, rfl⟩))

theorem progress_commandPull (k : Closure K) (click : ℕ) :
    Progress (k.commandPull click).2 k.pullFailure
      ((k.commandPull click).1.foldl PageAction.loadingAfter true) false := by
  obtain ⟨heff, hfail⟩ | ⟨heff, hfail⟩ | ⟨heff, hfail⟩ | ⟨id, heff, hfail⟩ :=
    commandPull_cases k click
  · rw [heff, hfail]
    exact .done true false
  · rw [heff, hfail]
    exact .failed .noRobots
  · rw [heff, hfail]
    exact .failed (.argument .pull)
  · rw [heff, hfail]
    exact .submit (.pull click id)

theorem loading_onError (tx : Tx K) (error : DispatchError Swarm.Error) (loading : Bool) :
    (tx.onError error).1.foldl PageAction.loadingAfter loading = false := by
  cases tx <;> rfl

/-- **One stretch of a flow.** What the flow waited for goes over to what it waits for next; when a
registration was sent, it is to append its robot besides. -/
theorem Progress.react {t : Task K} {ok : Bool} {e : Effect K} {failure : Option FailurePoint}
    {loading sent : Bool} (h : Progress [t] failure loading sent) (he : t.react ok = some e) :
    Progress e.2 (failure.or (t.failure ok)) (e.1.foldl PageAction.loadingAfter loading) sent ∨
    (sent = false ∧ ∃ main, e.2 = main ++ [.setRobots] ∧ Progress main
      (failure.or (t.failure ok)) (e.1.foldl PageAction.loadingAfter loading) true) := by
  -- by what the flow waited for, which its progress fixes
  cases Task.reacts he with
  | nonce id =>
    cases h
    exact Or.inl (.submit (.register id))
  | noNonce id =>
    cases h
    exact Or.inl (.failed .nonce)
  | register id =>
    cases h
    exact Or.inr ⟨rfl, [.pool (.register id)], rfl, .pool (.register id)⟩
  | submit tx htx =>
    cases h
    cases tx with
    | register id => exact absurd rfl (htx id)
    | enqueue | pull => exact Or.inl (.pool _)
  | enqueueRefused click command k =>
    cases h
    exact Or.inl (.failed (.signAndSend .enqueue))
  | refused tx htx =>
    cases h
    cases tx with
    | enqueue click command k => exact absurd rfl (htx click command k)
    | register | pull => exact Or.inl (.failed (.signAndSend _))
  | setRobots => cases h
  | inBlock tx =>
    cases h
    exact Or.inl (.finalized tx)
  | inBlockError tx error =>
    cases h
    rw [loading_onError]
    exact Or.inl (.finalizedError tx error)
  | finalized tx =>
    cases h
    cases tx with
    | register id => exact Or.inl (.done false true)
    | enqueue click command k => exact Or.inl (progress_commandPull k click)
    | pull click id => exact Or.inl (.done false false)
  | finalizedError tx error =>
    cases h
    rw [loading_onError]
    cases tx <;> exact Or.inl (.failed (.dispatchError _))

theorem Progress.include {tx : Tx K} {failure : Option FailurePoint} {loading sent : Bool}
    (h : Progress [.pool tx] failure loading sent) (error : Option (DispatchError Swarm.Error)) :
    Progress [.inBlock tx error] failure loading sent := by
  cases h
  exact .inBlock tx error

/-! ### The invariant -/

/-- The robot a flow appends, given the ids before the click: no registration was sent, or its end
is still to come, or the robot was appended. -/
inductive Appends (ids : Option (List ℕ)) : Bool → List (Task K) → Option (List ℕ) → Prop where
  | unsent : Appends ids false [] ids
  | waiting : Appends ids true [.setRobots] ids
  | appended : Appends ids true [] (ids.map fun ids => ids ++ [ids.length])

theorem Appends.of_unsent {ids now : Option (List ℕ)} {pending : List (Task K)}
    (h : Appends ids false pending now) : pending = [] ∧ now = ids := by
  cases h
  exact ⟨rfl, rfl⟩

theorem Appends.of_pending {ids now : Option (List ℕ)} {pending : List (Task K)} {sent : Bool}
    {t : Task K} (h : Appends ids sent pending now) (ht : t ∈ pending) :
    pending = [.setRobots] ∧ t = .setRobots ∧ sent = true ∧ now = ids := by
  cases h with
  | unsent | appended => cases ht
  | waiting => exact ⟨rfl, List.mem_singleton.mp ht, rfl, rfl⟩

/-- How far a flow is, given the ids before the click. -/
def Stage (ids : Option (List ℕ)) (s : Flow K) : Prop :=
  ∃ main pending sent, s.tasks.Perm (main ++ pending) ∧
    Progress main s.failure s.page.loading.latest sent ∧
    Appends ids sent pending s.page.robotIds

variable [JsArith K] {ids : Option (List ℕ)} {p : Page K} {c : Click} {s s' : Flow K}

theorem Stage.start (h : start p c = some s) : Stage p.robotIds s := by
  obtain ⟨⟨e, failure⟩, hclick, h⟩ := Option.bind_eq_some_iff.mp h
  obtain ⟨q, hq, rfl⟩ := Option.map_eq_some_iff.mp h
  obtain ⟨hids, hloading⟩ := Page.runAct_frame hq
  have hstage : Registers e none 0 → (∀ loading, Progress e.2 failure
      (e.1.foldl PageAction.loadingAfter loading) false) → Stage p.robotIds ⟨q, e.2, failure⟩ := by
    intro hreg hprogress
    refine ⟨e.2, [], false, ?_, ?_, ?_⟩
    · rw [List.append_nil]
    · dsimp only
      rw [hloading]
      exact hprogress _
    · dsimp only
      rw [hids hreg.appends hreg.no_tick]
      exact .unsent
  -- a click goes to a page that is still there, a registration to one that is ready
  unfold onClick at hclick
  cases c with
  | register =>
    dsimp only at hclick
    split_ifs at hclick
    cases hclick
    exact hstage (Closure.registers_registerRobot _) fun loading => progress_registerRobot _ loading
  | canvas click x y =>
    dsimp only at hclick
    split_ifs at hclick
    cases hclick
    exact hstage (Closure.registers_handleCanvasClick _ click x y) fun loading =>
      progress_handleCanvasClick _ click x y loading

omit [JsArith K] in
/-- A task of the flow, taken out. -/
theorem perm_eraseIdx {i : ℕ} {t : Task K} {rest : List (Task K)} {tasks : List (Task K)}
    (ht : tasks[i]? = some t) (hperm : tasks.Perm (t :: rest)) : (tasks.eraseIdx i).Perm rest :=
  ((perm_cons_eraseIdx ht).symm.trans hperm).cons_inv

/-- **Invariant preservation, tasks.** -/
theorem Stage.task {i : ℕ} {ok : Bool} {t : Task K} {e : Effect K} (h : Stage ids s)
    (ht : s.tasks[i]? = some t) (he : t.react ok = some e)
    (hp : System.runAct Page.act s.page e.1 = some p) :
    Stage ids ⟨p, s.tasks.eraseIdx i ++ e.2, s.failure.or (t.failure ok)⟩ := by
  obtain ⟨main, pending, sent, hperm, hprogress, happends⟩ := h
  obtain ⟨hids, hloading⟩ := Page.runAct_frame hp
  obtain hmain | hpending := List.mem_append.mp (hperm.subset (List.mem_of_getElem? ht))
  · obtain ⟨rfl, hne⟩ := hprogress.eq_singleton hmain
    have hrest := perm_eraseIdx ht hperm
    -- the robots are left alone
    obtain ⟨-, hreg⟩ := Task.registers_react he
    rw [hne] at hreg
    rw [← hids hreg.appends hreg.no_tick] at happends
    obtain hnext | ⟨rfl, main, hmain', hnext⟩ := hprogress.react he
    · refine ⟨e.2, pending, sent, ?_, ?_, happends⟩
      · exact (hrest.append_right e.2).trans List.perm_append_comm
      · dsimp only
        rw [hloading]
        exact hnext
    · -- a registration was sent
      obtain ⟨rfl, hnow⟩ := happends.of_unsent
      refine ⟨main, [.setRobots], true, ?_, ?_, ?_⟩
      · rw [hmain']
        exact hrest.append_right _
      · dsimp only
        rw [hloading]
        exact hnext
      · dsimp only
        rw [hnow]
        exact .waiting
  · -- the end of the registration
    obtain ⟨rfl, rfl, rfl, hnow⟩ := happends.of_pending hpending
    cases Task.reacts he
    obtain rfl := Option.some.inj hp
    refine ⟨main, [], true, ?_, ?_, ?_⟩
    · rw [List.append_nil, List.append_nil]
      exact perm_eraseIdx ht (hperm.trans List.perm_append_comm)
    · dsimp only
      have hnone : (Task.setRobots : Task K).failure true = none := rfl
      rw [hloading, hnone, Option.or_none]
      exact hprogress
    · dsimp only
      rw [Page.robotIds_setRobots, hnow]
      exact .appended

/-- **Invariant preservation.** -/
theorem Stage.act {a : FlowAction K} (h : Stage ids s) (hG : s.TicksKeep a)
    (ha : s.act a = some s') : Stage ids s' := by
  cases a with
  | page a =>
    obtain ⟨hflow, ha⟩ := Option.ite_none_left_eq_some.mp ha
    obtain ⟨p, hp, rfl⟩ := Option.map_eq_some_iff.mp ha
    obtain ⟨main, pending, sent, hperm, hprogress, happends⟩ := h
    refine ⟨main, pending, sent, hperm, ?_, ?_⟩
    · have hloading : p.loading.latest = s.page.loading.latest := by
        rw [Page.loading_act hp]
        cases a <;> first | rfl | exact absurd rfl hflow
      dsimp only
      rw [hloading]
      exact hprogress
    · have hids : p.robotIds = s.page.robotIds := by
        refine Page.robotIds_act hp ?_ hG
        cases a <;> first | rfl | exact absurd rfl hflow
      dsimp only
      rw [hids]
      exact happends
  | task i ok =>
    obtain ⟨t, ht, ha⟩ := Option.bind_eq_some_iff.mp ha
    obtain ⟨e, he, ha⟩ := Option.bind_eq_some_iff.mp ha
    obtain ⟨p, hp, rfl⟩ := Option.map_eq_some_iff.mp ha
    exact h.task ht he hp
  | includeTx i error =>
    unfold Flow.act at ha
    dsimp only at ha
    split at ha
    · rename_i tx ht
      obtain rfl := Option.some.inj ha
      obtain ⟨main, pending, sent, hperm, hprogress, happends⟩ := h
      obtain hmain | hpending := List.mem_append.mp (hperm.subset (List.mem_of_getElem? ht))
      · obtain ⟨rfl, -⟩ := hprogress.eq_singleton hmain
        refine ⟨[.inBlock tx error], pending, sent, ?_, ?_, happends⟩
        · exact ((perm_eraseIdx ht hperm).append_right _).trans List.perm_append_comm
        · exact hprogress.include error
      · -- what is pending is the end of a registration, not a transaction
        obtain ⟨-, hne, -⟩ := happends.of_pending hpending
        cases hne
    · cases ha

theorem Stage.run {ls : List (FlowAction K)} (h : Stage ids s)
    (hrun : ((flowSystem K).restrict TicksKeep).Run s ls s') : Stage ids s' :=
  hrun.invariant h fun _ _ _ h ⟨hG, ha⟩ => h.act hG ha

omit [JsArith K] in
/-- A flow that has ended by failing: where it failed decides what `loading` is, and whether a
robot was appended. -/
theorem Stage.ended {f : FailurePoint} (h : Stage ids s) (hended : s.tasks = [])
    (hfailed : s.failure = some f) :
    s.page.loading.latest = (!f.isHandled && !f.appends) ∧
      s.page.robotIds = if f.appends then ids.map fun ids => ids ++ [ids.length] else ids := by
  obtain ⟨main, pending, sent, hperm, hprogress, happends⟩ := h
  rw [hended] at hperm
  obtain ⟨rfl, rfl⟩ := List.append_eq_nil_iff.mp hperm.nil_eq.symm
  rw [hfailed] at hprogress
  generalize s.page.loading.latest = loading at hprogress ⊢
  generalize s.page.robotIds = now at happends ⊢
  cases hprogress
  refine ⟨rfl, ?_⟩
  generalize f.appends = sent at happends
  cases happends with
  | unsent | appended => rfl

end Flow

/-! ### Flows that have failed -/

section Failed

variable [JsArith K] {p : Page K} {c : Click} {s s' : Flow K} {ls : List (FlowAction K)}
  {f : FailurePoint}

omit [JsArith K] in
theorem Page.robotIds_eq_some_iff {ids : List ℕ} : p.robotIds = some ids ↔
    ∃ rs, p.robots.latest.value = some (.list rs) ∧ rs.map Robot.id = ids := by
  unfold Page.robotIds
  rw [Option.bind_eq_some_iff]
  refine ⟨?_, ?_⟩
  · rintro ⟨state, hval, hids⟩
    cases state with
    | robot r => cases hids
    | list rs => exact ⟨rs, hval, Option.some.inj hids⟩
  · rintro ⟨rs, hval, hids⟩
    exact ⟨.list rs, hval, congrArg some hids⟩

/-- **Failed flows.** At every type of numbers, for every state of the page and every click: if the
ticks in between keep the robots and the flow has ended and failed, then the robots are those from
before the click and `loading` is false exactly if the robots were a list and the failure is one
of those the code handles. -/
theorem failed_flow_restored_iff (hstart : Flow.start p c = some s)
    (hrun : ((flowSystem K).restrict Flow.TicksKeep).Run s ls s') (hended : s'.tasks = [])
    (hfailed : s'.failure = some f) :
    Restored p s'.page ↔
      (∃ rs, p.robots.latest.value = some (.list rs)) ∧ f.isHandled = true := by
  obtain ⟨hloading, hids⟩ := ((Flow.Stage.start hstart).run hrun).ended hended hfailed
  unfold Restored
  rw [hloading, hids]
  refine ⟨?_, ?_⟩
  · rintro ⟨ids, hbefore, hafter, hnot⟩
    obtain ⟨rs, hval, -⟩ := Page.robotIds_eq_some_iff.mp hbefore
    refine ⟨⟨rs, hval⟩, ?_⟩
    cases happends : f.appends with
    | false =>
      rwa [happends, Bool.not_false, Bool.and_true, Bool.not_eq_false'] at hnot
    | true =>
      -- one robot more
      rw [happends, if_pos rfl, hbefore] at hafter
      have hlength := congrArg List.length (Option.some.inj hafter)
      rw [List.length_append, List.length_singleton] at hlength
      omega
  · rintro ⟨⟨rs, hval⟩, hhandled⟩
    have hbefore : p.robotIds = some (rs.map Robot.id) :=
      Page.robotIds_eq_some_iff.mpr ⟨rs, hval, rfl⟩
    refine ⟨rs.map Robot.id, hbefore, ?_, ?_⟩
    · rw [FailurePoint.appends_eq_false hhandled]
      exact hbefore
    · rw [hhandled]
      rfl

end Failed

/-- A move command that the chain refuses, on a page with one robot. -/
theorem failed_flow_restored_enqueue : ∃ (p : Page ℝ) (s s' : Flow ℝ),
    p.robotIds = some [0] ∧ p.loading.latest = false ∧ Flow.start p (.canvas 0 3 4) = some s ∧
      ((flowSystem ℝ).restrict Flow.TicksKeep).Run s [.task 0 true,
        .includeTx 0 (some (.pallet .queueFull)), .page .commit, .task 0 true, .page .effects,
        .task 0 true] s' ∧
      s'.tasks = [] ∧ s'.failure = some (.dispatchError .enqueue) ∧ Restored p s'.page := by
  have hflow : (Flow.start (Page.initial : Page ℝ).connect.setRobots.commit.effects
      (.canvas 0 3 4)).bind (fun s => System.runAct Flow.act s [.task 0 true,
        .includeTx 0 (some (.pallet .queueFull)), .page .commit, .task 0 true, .page .effects,
        .task 0 true]) = some _ := rfl
  obtain ⟨s, hstart, hrun⟩ := Option.bind_eq_some_iff.mp hflow
  have hrun : (flowSystem ℝ).Run s _ _ := .of_runAct hrun
  -- the page does not tick in between
  have hfree := hrun.to_restrict (G := Flow.TicksKeep) (by simp [Flow.TicksKeep, KeepsRobots])
  have hrestored := (failed_flow_restored_iff (f := .dispatchError .enqueue) hstart hfree rfl
    rfl).mpr ⟨⟨_, rfl⟩, rfl⟩
  exact ⟨_, s, _, rfl, rfl, hstart, hfree, rfl, rfl, hrestored⟩

/-- The nonce query of a registration rejects, and `loading` stays set. -/
theorem rejected_nonce_keeps_loading :
    ¬ ∀ (as : List (PageAction ℝ)) (p : Page ℝ), (pageSystem ℝ).Run Page.initial as p →
      ∀ (c : Click) (s s' : Flow ℝ) (ls : List (FlowAction ℝ)) (f : FailurePoint),
        Flow.start p c = some s → (flowSystem ℝ).Run s ls s' → s'.tasks = [] →
          s'.failure = some f → Restored p s'.page := by
  intro h
  obtain ⟨ids, -, -, hloading⟩ := h [.connect, .commit, .effects] _ (.of_runAct rfl) .register _ _
    [.task 0 false] .nonce rfl (.of_runAct rfl) rfl rfl
  have htrue : true = false := hloading
  cases htrue

end SwarmBase
