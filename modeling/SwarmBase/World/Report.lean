import SwarmBase.Ui.Log
import SwarmBase.World.Flow

/-!
# What the log says of the chain

The pages report what has become of their transactions in their logs, in the status callbacks of
`signAndSend`. A callback is called with each status of its transaction, and appends a line for the
success when the block is final, but for a failure whenever the status carries a `dispatchError`,
which it does both in the block and when the block is final.

A line that is still to come is a matter of the tasks that are outstanding: `Reports` says how many
lines of a kind each task accounts for, and `Reports.run` that no line appears or is lost on the
way.

* `outcomes_reported` — every success is reported once and every failure twice, and nothing is
  reported that did not happen on the chain.
-/

namespace SwarmBase

open Framework

/-! ### Lines -/

/-- The transaction whose success a line reports. -/
def LogLine.success? : LogLine → Option TxKind
  | .registered => some .register
  | .finishedCommand => some .pull
  | _ => none

/-- The transaction whose failure a line reports. That of a pull is followed by its error, on a line
of its own. -/
def LogLine.failure? : LogLine → Option TxKind
  | .registerFailed _ => some .register
  | .commandFailed _ => some .enqueue
  | .pullFailed => some .pull
  | _ => none

variable {C K : Type}

/-- The lines of a stretch of a flow that `q` selects. -/
def Effect.lines (q : LogLine → Bool) (e : Effect K) : ℕ :=
  (e.1.flatMap PageAction.lines).countP q

/-- The lines that a task is going to append to the log, by `due`, are those selected by `q`: the
status callbacks append them one after the other, and nothing else does. -/
structure Reports (q : LogLine → Bool) (due : Task K → ℕ) : Prop where
  connected : q .connected = false
  registerRobot : ∀ k : Closure K,
    k.registerRobot.lines q = 0 ∧ (k.registerRobot.2.map due).sum = 0
  handleCanvasClick : ∀ (k : Closure K) click x y,
    (k.handleCanvasClick click x y).lines q = 0 ∧
      ((k.handleCanvasClick click x y).2.map due).sum = 0
  react : ∀ t ok e, Task.Reacts t ok e → e.lines q + (e.2.map due).sum = due t
  pool : ∀ tx, due (.pool tx) = 0

namespace World

/-- The lines in the log of the page `c` that `q` selects. -/
def linesOf (w : World C K) (c : C) (q : LogLine → Bool) : ℕ :=
  (w.pages c).events.latest.countP q

variable [DecidableEq C]

/-- What the tasks of the page `c` weigh. -/
def dueTo (w : World C K) (c : C) (due : Task K → ℕ) : ℕ :=
  (w.tasks.map fun ct => if ct.1 = c then due ct.2 else 0).sum

/-- What the status callbacks of the included transactions of the page `c` were to append. -/
def owedTo (w : World C K) (c : C) (due : Task K → ℕ) : ℕ :=
  (w.blocks.map fun b => if b.client = c then due (.inBlock b.tx b.error) else 0).sum

end World

section Steps

variable [DecidableEq C] [JsArith K] {w w' : World C K} {l : WorldAction C K} {c : C}
  {q : LogLine → Bool} {due : Task K → ℕ}

theorem World.linesOf_after {e : Effect K} {p : Page K} {kept : List (C × Task K)} {clicks : ℕ}
    (hp : System.runAct Page.act (w.pages c) e.1 = some p) :
    (w.after c p kept e.2 clicks).linesOf c q = w.linesOf c q + e.lines q := by
  unfold World.linesOf Effect.lines
  rw [World.after_pages_self, Page.events_run (.of_runAct hp), List.countP_append]

omit [JsArith K] in
/-- What a stretch of a flow appends, and what it leaves to be appended, is what its task was to
append. -/
theorem Reports.stretch (hq : Reports q due) {d : C} {e : Effect K} {kept : List (C × Task K)}
    {clicks : ℕ} (h : World.Stretch w l d e kept clicks) :
    (kept.map fun ct => if ct.1 = c then due ct.2 else 0).sum +
        (if d = c then e.lines q + (e.2.map due).sum else 0) = w.dueTo c due := by
  cases h with
  | page _ a ha =>
    have hlines : Effect.lines q ([a], ([] : List (Task K))) = 0 := by
      cases a with
      | updateEvents => cases ha
      | connect => exact List.countP_eq_zero.mpr (by simp [PageAction.lines, hq.connected])
      | _ => rfl
    rw [hlines, List.map_nil, List.sum_nil, Nat.add_zero, ite_self]
    exact Nat.add_zero _
  | clickRegister =>
    obtain ⟨hlines, hdue⟩ := hq.registerRobot (w.pages d).closure
    rw [hlines, hdue, Nat.add_zero, ite_self]
    exact Nat.add_zero _
  | clickCanvas _ x y =>
    obtain ⟨hlines, hdue⟩ := hq.handleCanvasClick (w.pages d).onClickRef w.clicks x y
    rw [hlines, hdue, Nat.add_zero, ite_self]
    exact Nat.add_zero _
  | task i ok _ t _ ht he =>
    rw [hq.react t ok e (Task.reacts he)]
    exact sum_map_eraseIdx ht fun ct => if ct.1 = c then due ct.2 else 0

theorem Reports.act (hq : Reports q due) (h : w.linesOf c q + w.dueTo c due = w.owedTo c due)
    (hstep : w.act l = some w') : w'.linesOf c q + w'.dueTo c due = w'.owedTo c due := by
  obtain ⟨d, e, kept, clicks, p, hst, hp, rfl⟩ | ⟨i, d, tx, -, hi, rfl⟩ := World.act_cases hstep
  · have hsum := hq.stretch (c := c) hst
    have howed : (w.after d p kept e.2 clicks).owedTo c due = w.owedTo c due := rfl
    rw [howed, ← h, ← hsum]
    unfold World.dueTo
    rw [World.sum_tasks_after]
    dsimp only
    by_cases hd : d = c
    · subst hd
      rw [World.linesOf_after hp, if_pos rfl]
      simp only [if_true]
      rw [Nat.add_assoc, Nat.add_left_comm (Effect.lines q e)]
    · have hlines : (w.after d p kept e.2 clicks).linesOf c q = w.linesOf c q := by
        unfold World.linesOf
        rw [World.after_pages_of_ne (Ne.symm hd)]
      simp only [hlines, if_neg hd, List.sum_map_zero]
  · -- the transaction is in a block, and its callback is to be called
    have hsum := World.sum_tasks_includeTx hi fun ct => if ct.1 = c then due ct.2 else 0
    dsimp only at hsum
    rw [hq.pool, ite_self, Nat.add_zero] at hsum
    have howed : (w.includeTx i d tx).owedTo c due = w.owedTo c due +
        if d = c then due (.inBlock tx
          (Swarm.dispatchError w.chain ⟨.signed w.signer, tx.call⟩)) else 0 := by
      unfold World.owedTo World.includeTx
      dsimp only
      rw [List.map_append, List.sum_append, List.map_singleton, List.sum_singleton]
    rw [howed, ← h]
    unfold World.dueTo
    rw [hsum, Nat.add_assoc]
    rfl

/-- **No line appears or is lost.** -/
theorem Reports.run (hq : Reports q due) {signer : Runtime.AccountId}
    {chain : Swarm.Storage Runtime} {ls : List (WorldAction C K)}
    (h : (worldSystem C K).Run (World.opened signer chain) ls w) (c : C) :
    w.linesOf c q + w.dueTo c due = w.owedTo c due :=
  h.invariant (I := fun w => w.linesOf c q + w.dueTo c due = w.owedTo c due) rfl
    fun _ _ _ hw hstep => hq.act hw hstep

end Steps

/-! ### Successes and failures -/

/-- The success of a transaction of this kind is still to be reported. -/
def Task.successDue (k : TxKind) : Task K → ℕ
  | .inBlock tx none | .finalized tx none => if tx.kind = k then 1 else 0
  | _ => 0

/-- The failure of a transaction of this kind is still to be reported so many times. -/
def Task.failureDue (k : TxKind) : Task K → ℕ
  | .inBlock tx (some _) => if tx.kind = k then 2 else 0
  | .finalized tx (some _) => if tx.kind = k then 1 else 0
  | _ => 0

/-- A status callback is to be called. -/
def Task.isCallback : Task K → Bool
  | .inBlock _ _ | .finalized _ _ => true
  | _ => false

theorem Task.successDue_eq_zero {k : TxKind} {t : Task K} (h : t.isCallback = false) :
    t.successDue k = 0 := by
  cases t with
  | inBlock | finalized => cases h
  | _ => rfl

theorem Task.failureDue_eq_zero {k : TxKind} {t : Task K} (h : t.isCallback = false) :
    t.failureDue k = 0 := by
  cases t with
  | inBlock | finalized => cases h
  | _ => rfl

theorem Closure.lines_registerRobot (k : Closure K) {q : LogLine → Bool} {due : Task K → ℕ}
    (hq : ∀ n, q (.registering n) = false) (hdue : ∀ id, due (.nonce id) = 0) :
    k.registerRobot.lines q = 0 ∧ (k.registerRobot.2.map due).sum = 0 := by
  unfold Effect.lines Closure.registerRobot
  dsimp only
  generalize u32OfInt _ = o
  cases k.ready <;> cases o <;> simp [PageAction.lines, hq, hdue]

theorem Closure.lines_handleCanvasClick (k : Closure K) (click : ℕ) (x y : ℤ)
    (q : LogLine → Bool) {due : Task K → ℕ} (hdue : ∀ tx, due (.submit tx) = 0) :
    (k.handleCanvasClick click x y).lines q = 0 ∧
      ((k.handleCanvasClick click x y).2.map due).sum = 0 := by
  unfold Effect.lines Closure.handleCanvasClick
  generalize encodeGoToLocation x y = o
  cases k.ready <;> cases o <;> simp [PageAction.lines, hdue]

theorem Closure.lines_commandPull (k : Closure K) (click : ℕ) {q : LogLine → Bool}
    {due : Task K → ℕ} (hq : q .sendingToRobots = false) (hdue : ∀ tx, due (.submit tx) = 0) :
    (k.commandPull click).lines q + ((k.commandPull click).2.map due).sum = 0 := by
  unfold Effect.lines Closure.commandPull
  split_ifs
  · rfl
  · split
    · rfl
    · rename_i r rest _
      generalize u32OfInt (r.id : ℤ) = o
      cases o <;> simp [PageAction.lines, hq, hdue]
    · simp [PageAction.lines, hq]

/-- A failed transaction reports its failure in one line. -/
theorem Tx.lines_onError (error : DispatchError Swarm.Error) (tx : Tx K) (k : TxKind) :
    (tx.onError error).lines (fun line => line.failure? = some k) =
      if tx.kind = k then 1 else 0 := by
  cases tx <;> cases k <;> rfl

theorem reports_success {k : TxKind} (hk : k ≠ .enqueue) :
    Reports (K := K) (fun line => line.success? = some k) (Task.successDue k) where
  connected := rfl
  registerRobot c := c.lines_registerRobot (fun _ => rfl) fun _ => rfl
  handleCanvasClick c click x y := c.lines_handleCanvasClick click x y _ fun _ => rfl
  react := by
    intro t ok e h
    cases h with
    | nonce | noNonce | register | submit | enqueueRefused | refused | setRobots => rfl
    | inBlock tx => exact Nat.zero_add _
    | inBlockError tx error => cases tx <;> rfl
    | finalizedError tx error => cases tx <;> rfl
    | finalized tx =>
      cases tx with
      | enqueue click command c =>
        -- the pull that follows has a success of its own
        rw [Tx.onFinalized, c.lines_commandPull click rfl fun _ => rfl]
        exact (if_neg hk.symm).symm
      | register | pull => cases k <;> rfl
  pool _ := rfl

theorem reports_failure (k : TxKind) :
    Reports (K := K) (fun line => line.failure? = some k) (Task.failureDue k) where
  connected := rfl
  registerRobot c := c.lines_registerRobot (fun _ => rfl) fun _ => rfl
  handleCanvasClick c click x y := c.lines_handleCanvasClick click x y _ fun _ => rfl
  react := by
    intro t ok e h
    cases h with
    | nonce | noNonce | register | submit | enqueueRefused | refused | setRobots => rfl
    | inBlock tx => rfl
    | inBlockError tx error =>
      -- once in the block, and once more when the block is final
      have hlines := tx.lines_onError error k
      unfold Effect.lines at hlines ⊢
      rw [hlines]
      show _ + ((if tx.kind = k then 1 else 0) + 0) = if tx.kind = k then 2 else 0
      split_ifs <;> rfl
    | finalizedError tx error =>
      rw [tx.lines_onError, tx.onError_snd]
      exact Nat.add_zero _
    | finalized tx =>
      cases tx with
      | enqueue click command c => exact c.lines_commandPull click rfl fun _ => rfl
      | register | pull => rfl
  pool _ := rfl

namespace World

variable [DecidableEq C]

/-- The successful transactions of this kind of the page `c`. -/
def succeeded (w : World C K) (c : C) (k : TxKind) : ℕ :=
  w.blocks.countP fun b => b.client = c ∧ b.tx.kind = k ∧ b.error = none

/-- The failed transactions of this kind of the page `c`. -/
def failed (w : World C K) (c : C) (k : TxKind) : ℕ :=
  w.blocks.countP fun b => b.client = c ∧ b.tx.kind = k ∧ b.error ≠ none

/-- No status callback of the page `c` is to be called. -/
def Reported (w : World C K) (c : C) : Prop :=
  ∀ ct ∈ w.tasks, ct.1 = c → ct.2.isCallback = false

theorem sum_map_ite_const {α : Type} (p : α → Prop) [DecidablePred p] (n : ℕ) (l : List α) :
    (l.map fun a => if p a then n else 0).sum = n * l.countP p := by
  rw [sum_map_ite_zero, List.map_const', List.sum_replicate, smul_eq_mul, Nat.mul_comm,
    List.countP_eq_length_filter]

theorem owedTo_successDue (w : World C K) (c : C) (k : TxKind) :
    w.owedTo c (Task.successDue k) = w.succeeded c k := by
  unfold owedTo succeeded
  rw [← Nat.one_mul (w.blocks.countP _), ← sum_map_ite_const]
  congr 1
  refine List.map_congr_left fun b _ => ?_
  obtain ⟨d, tx, error⟩ := b
  cases error <;> simp [Task.successDue, ite_and]

theorem owedTo_failureDue (w : World C K) (c : C) (k : TxKind) :
    w.owedTo c (Task.failureDue k) = 2 * w.failed c k := by
  unfold owedTo failed
  rw [← sum_map_ite_const]
  congr 1
  refine List.map_congr_left fun b _ => ?_
  obtain ⟨d, tx, error⟩ := b
  cases error <;> simp [Task.failureDue, ite_and]

/-- Only status callbacks have something to report. -/
theorem Reported.dueTo {w : World C K} {c : C} (h : w.Reported c) {due : Task K → ℕ}
    (hdue : ∀ t, t.isCallback = false → due t = 0) : w.dueTo c due = 0 := by
  refine List.sum_eq_zero fun n hn => ?_
  obtain ⟨ct, hct, rfl⟩ := List.mem_map.mp hn
  split_ifs with hc
  · exact hdue ct.2 (h ct hct hc)
  · rfl

end World

/-- **Every outcome is reported.** Take any number of pages on a chain in any state, and any order
in which their flows go on and their transactions are included. For every page and every kind of
transaction: the log of the page reports no more successes of registrations and of pulls than there
were, and exactly one for each once no status callback of the page is outstanding; and it reports at
most two failures for each transaction that failed, and exactly two once no status callback is
outstanding. -/
theorem outcomes_reported [DecidableEq C] [JsArith K] {signer : Runtime.AccountId}
    {chain : Swarm.Storage Runtime} {ls : List (WorldAction C K)} {w : World C K}
    (h : (worldSystem C K).Run (World.opened signer chain) ls w) (c : C) (k : TxKind) :
    (k ≠ .enqueue →
      w.linesOf c (fun line => line.success? = some k) ≤ w.succeeded c k ∧
      (w.Reported c → w.linesOf c (fun line => line.success? = some k) = w.succeeded c k)) ∧
    w.linesOf c (fun line => line.failure? = some k) ≤ 2 * w.failed c k ∧
    (w.Reported c → w.linesOf c (fun line => line.failure? = some k) = 2 * w.failed c k) := by
  refine ⟨?_, ?_⟩
  · intro hk
    have hrun := (reports_success hk).run h c
    rw [w.owedTo_successDue] at hrun
    refine ⟨hrun ▸ Nat.le_add_right _ _, fun hreported => ?_⟩
    rwa [hreported.dueTo fun t => Task.successDue_eq_zero, Nat.add_zero] at hrun
  · have hrun := (reports_failure k).run h c
    rw [w.owedTo_failureDue] at hrun
    refine ⟨hrun ▸ Nat.le_add_right _ _, fun hreported => ?_⟩
    rwa [hreported.dueTo fun t => Task.failureDue_eq_zero, Nat.add_zero] at hrun

/-- A pull that is included before its robot is registered. -/
theorem outcomes_reported_pull : ∃ w : World Unit ℝ, w.failed () .pull = 1 ∧
    (TxKind.pull ≠ .enqueue →
      w.linesOf () (fun line => line.success? = some .pull) ≤ w.succeeded () .pull ∧
      (w.Reported () →
        w.linesOf () (fun line => line.success? = some .pull) = w.succeeded () .pull)) ∧
    w.linesOf () (fun line => line.failure? = some .pull) ≤ 2 * w.failed () .pull ∧
    (w.Reported () →
      w.linesOf () (fun line => line.failure? = some .pull) = 2 * w.failed () .pull) := by
  have hrun : (worldSystem Unit ℝ).Run (World.opened 0 (Swarm.Storage.empty Runtime))
      [.page () .connect, .page () .commit, .page () .effects, .clickRegister (), .task 0 true,
        .task 0 true, .task 1 true, .page () .commit, .page () .effects, .clickCanvas () 100 100,
        .task 1 true, .includeTx 1, .task 1 true, .task 1 true, .task 1 true, .includeTx 1,
        .task 1 true, .task 1 true] _ := .of_runAct rfl
  exact ⟨_, rfl, outcomes_reported hrun () .pull⟩

end SwarmBase
