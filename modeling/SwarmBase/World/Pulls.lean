import SwarmBase.Framework.Others
import SwarmBase.Ui.RobotList
import SwarmBase.World.Model

/-!
# Enqueues and pulls of the pages

A canvas click enqueues a command, and pulls one once the enqueue is final. In between the click
owes a pull: the queue is as long as the number of pulls that are owed (`PullsMatch`), so it is
empty when nothing is outstanding. Three things break this for good, and only these:

* `commandPull` gives up if the render the click was made in had no robots, although the enqueue
  is already final;
* the submission of the pull is refused, which nothing catches;
* the pull fails, since its robot is not registered.

* `queue_empty_when_quiet` — in every run without these the queue is empty whenever no transaction
  and no callback is outstanding;
* `enqueue_without_pull` — one click on a page without robots.
-/

namespace SwarmBase

open Framework

variable {C K : Type}

/-! ### What is owed -/

/-- Whether something outstanding owes the pull of a canvas click whose number `φ` selects: the
enqueue succeeded and the pull is not included yet. -/
def Task.owes (φ : ℕ → Bool) : Task K → Bool
  | .inBlock (.enqueue click _ _) none => φ click
  | .finalized (.enqueue click _ _) none => φ click
  | .submit (.pull click _) => φ click
  | .pool (.pull click _) => φ click
  | _ => false

/-- Whether something outstanding will enqueue the command of a click. -/
def Task.enqueues (φ : ℕ → Bool) : Task K → Bool
  | .submit (.enqueue click _ _) => φ click
  | .pool (.enqueue click _ _) => φ click
  | _ => false

/-- A successful `enqueue_command` of a click. -/
def Inclusion.isEnqueue (φ : ℕ → Bool) : Inclusion C K → Bool
  | ⟨_, .enqueue click _ _, none⟩ => φ click
  | _ => false

/-- A successful `pull_next` of a click. -/
def Inclusion.isPull (φ : ℕ → Bool) : Inclusion C K → Bool
  | ⟨_, .pull click _, none⟩ => φ click
  | _ => false

/-- A transaction, or a callback of one, is outstanding. What is left out is `registerRobot`
between its awaits, when it has no transaction on its way. -/
def Task.isOutstanding : Task K → Bool
  | .nonce _ | .setRobots => false
  | _ => true

namespace World

/-- The pulls owed to clicks that `φ` selects. -/
def owed (w : World C K) (φ : ℕ → Bool) : ℕ := w.tasks.countP fun ct => ct.2.owes φ

/-- The enqueues on their way of clicks that `φ` selects. -/
def enqueuing (w : World C K) (φ : ℕ → Bool) : ℕ := w.tasks.countP fun ct => ct.2.enqueues φ

/-- The commands that the clicks `φ` selects have enqueued. -/
def enqueued (w : World C K) (φ : ℕ → Bool) : ℕ := w.blocks.countP (Inclusion.isEnqueue φ)

/-- The commands that the clicks `φ` selects have pulled. -/
def pulled (w : World C K) (φ : ℕ → Bool) : ℕ := w.blocks.countP (Inclusion.isPull φ)

/-- No transaction and no callback is outstanding. -/
def Quiet (w : World C K) : Prop := ∀ ct ∈ w.tasks, ct.2.isOutstanding = false

theorem Quiet.owed {w : World C K} (h : w.Quiet) (φ : ℕ → Bool) : w.owed φ = 0 := by
  refine List.countP_eq_zero.mpr fun ct hct howes => ?_
  have hout : ct.2.isOutstanding = false := h ct hct
  -- whatever owes a pull is outstanding
  unfold Task.owes at howes
  unfold Task.isOutstanding at hout
  split at howes <;> simp_all

end World

/-- The condition on the steps of a run. An enqueue that succeeds was clicked in a render that
shows a robot, the submission of a pull is not refused, and the robot of a pull is registered when
the pull is included. -/
def PullsFollow (w : World C K) : WorldAction C K → Prop
  | .includeTx i => ∀ c tx, w.tasks[i]? = some (c, .pool tx) →
    match tx with
    | .register _ => True
    | .enqueue _ _ closure =>
      w.chain.globalCommandQueue.toList.length < Runtime.MaxGlobalCommands →
        ∃ r rest, closure.robots = some (.list (r :: rest))
    | .pull _ robotId => robotId ∈ w.chain.registeredRobots
  | .task i ok => ok = false → ∀ c click id, w.tasks[i]? ≠ some (c, .submit (.pull click id))
  | _ => True

/-! ### One stretch of a flow -/

/-- What is known of what a flow captured: a click is handled on a page that is ready; if its
command was enqueued, the render it was made in shows a robot, the first of which is robot `0`. -/
def Task.Sound : Task K → Prop
  | .submit (.enqueue _ _ k) => k.ready = true ∧ FirstIsZero k.robots
  | .pool (.enqueue _ _ k) => k.ready = true ∧ FirstIsZero k.robots
  | .inBlock (.enqueue _ _ k) none =>
    k.ready = true ∧ ∃ r rest, k.robots = some (.list (r :: rest)) ∧ r.id = 0
  | .finalized (.enqueue _ _ k) none =>
    k.ready = true ∧ ∃ r rest, k.robots = some (.list (r :: rest)) ∧ r.id = 0
  | _ => True

/-- What a stretch of a flow leaves outstanding: as many owed pulls as `owed`, no more enqueues
than `enqueuing`, and only sound tasks. -/
structure Leaves (ts : List (Task K)) (owed enqueuing : (ℕ → Bool) → ℕ) : Prop where
  owed : ∀ φ, ts.countP (Task.owes φ) = owed φ
  enqueuing : ∀ φ, ts.countP (Task.enqueues φ) ≤ enqueuing φ
  sound : ∀ t ∈ ts, t.Sound

theorem Leaves.nil : Leaves ([] : List (Task K)) (fun _ => 0) (fun _ => 0) :=
  ⟨fun _ => rfl, fun _ => Nat.le_refl _, nofun⟩

theorem Closure.leaves_registerRobot (k : Closure K) :
    Leaves k.registerRobot.2 (fun _ => 0) (fun _ => 0) := by
  rcases k.registerRobot_snd with h | ⟨id, h⟩
  · rw [h]
    exact .nil
  · rw [h]
    refine ⟨fun _ => rfl, fun _ => Nat.le_refl _, ?_⟩
    intro t ht
    obtain rfl := List.mem_singleton.mp ht
    trivial

theorem Closure.leaves_handleCanvasClick {k : Closure K} (hk : FirstIsZero k.robots) (click : ℕ)
    (x y : ℤ) :
    Leaves (k.handleCanvasClick click x y).2 (fun _ => 0) (fun φ => if φ click then 1 else 0) := by
  unfold Closure.handleCanvasClick
  split_ifs with hready
  · exact ⟨fun _ => rfl, fun _ => Nat.zero_le _, nofun⟩
  · split
    · exact ⟨fun _ => rfl, fun _ => Nat.zero_le _, nofun⟩
    · refine ⟨fun _ => rfl, fun φ => Nat.le_of_eq List.countP_singleton, ?_⟩
      intro t ht
      obtain rfl := List.mem_singleton.mp ht
      exact ⟨by simpa using hready, hk⟩

/-- A task that owes nothing leaves nothing. -/
theorem Leaves.none_of_task {t : Task K} (howes : ∀ φ, t.owes φ = false) :
    Leaves ([] : List (Task K)) (fun φ => if t.owes φ then 1 else 0)
      (fun φ => if t.enqueues φ then 1 else 0) := by
  refine ⟨fun φ => ?_, fun _ => Nat.zero_le _, nofun⟩
  rw [howes]
  rfl

/-- A task goes over to the next one of its flow. -/
theorem Leaves.one_of_task {t t' : Task K} (howes : ∀ φ, t'.owes φ = t.owes φ)
    (henqueues : ∀ φ, t'.enqueues φ = t.enqueues φ) (hsound : t'.Sound) :
    Leaves [t'] (fun φ => if t.owes φ then 1 else 0) (fun φ => if t.enqueues φ then 1 else 0) := by
  refine ⟨fun φ => ?_, fun φ => ?_, ?_⟩
  · rw [List.countP_singleton, howes]
  · rw [List.countP_singleton, henqueues]
  · intro t ht
    obtain rfl := List.mem_singleton.mp ht
    exact hsound

/-- The pull of a click in a render that shows robot `0`. -/
theorem Closure.commandPull_snd {k : Closure K} {r : Robot K} {rest : List (Robot K)}
    (hready : k.ready = true) (hrobots : k.robots = some (.list (r :: rest))) (hid : r.id = 0)
    (click : ℕ) : (k.commandPull click).2 = [.submit (.pull click 0)] := by
  -- past both early exits
  unfold Closure.commandPull
  rw [hready, hrobots, Bool.not_true, if_neg Bool.false_ne_true]
  dsimp only
  rw [hid]
  rfl

/-- **One stretch of a flow.** The pull a task owes goes over to what the flow leaves
outstanding. -/
theorem Task.leaves_react {t : Task K} {ok : Bool} {e : Effect K} (ht : t.react ok = some e)
    (hsound : t.Sound) (hpull : ok = false → ∀ click id, t ≠ .submit (.pull click id)) :
    Leaves e.2 (fun φ => if t.owes φ then 1 else 0) (fun φ => if t.enqueues φ then 1 else 0) := by
  cases Task.reacts ht with
  | nonce id => exact .one_of_task (fun _ => rfl) (fun _ => rfl) trivial
  | noNonce id => exact .none_of_task fun _ => rfl
  | register id =>
    -- two tasks, which have nothing to do with the queue
    refine ⟨fun _ => rfl, fun _ => Nat.le_refl _, ?_⟩
    intro t ht
    simp only [List.mem_cons, List.not_mem_nil, or_false] at ht
    obtain rfl | rfl := ht <;> trivial
  | submit tx htx =>
    cases tx with
    | register id => exact absurd rfl (htx id)
    | enqueue => exact .one_of_task (fun _ => rfl) (fun _ => rfl) hsound
    | pull => exact .one_of_task (fun _ => rfl) (fun _ => rfl) trivial
  | enqueueRefused => exact .none_of_task fun _ => rfl
  | refused tx htx =>
    -- a pull that is refused would be owed for good
    cases tx with
    | register => exact .none_of_task fun _ => rfl
    | enqueue click command k => exact absurd rfl (htx click command k)
    | pull click id => exact absurd rfl (hpull rfl click id)
  | setRobots => exact .none_of_task fun _ => rfl
  | inBlock tx =>
    cases tx with
    | register => exact .one_of_task (fun _ => rfl) (fun _ => rfl) trivial
    | enqueue => exact .one_of_task (fun _ => rfl) (fun _ => rfl) hsound
    | pull => exact .one_of_task (fun _ => rfl) (fun _ => rfl) trivial
  | inBlockError tx error =>
    -- a call that failed owes nothing
    cases tx <;> exact .one_of_task (fun _ => rfl) (fun _ => rfl) trivial
  | finalized tx =>
    cases tx with
    | register => exact .none_of_task fun _ => rfl
    | pull => exact .none_of_task fun _ => rfl
    | enqueue click command k =>
      -- here the pull is sent
      obtain ⟨hready, r, rest, hrobots, hid⟩ := hsound
      change Leaves (k.commandPull click).2 _ _
      rw [Closure.commandPull_snd hready hrobots hid]
      exact .one_of_task (fun _ => rfl) (fun _ => rfl) trivial
  | finalizedError tx error =>
    rw [Tx.onError_snd]
    cases tx <;> exact .none_of_task fun _ => rfl

/-! ### The invariant -/

/-- Every successful enqueue of a click is matched by its pull or owes it, the queue is as long as
the pulls that are owed, and a click enqueues at most once. -/
structure PullsMatch (w : World C K) : Prop where
  matched : ∀ φ, w.enqueued φ = w.pulled φ + w.owed φ
  queue : w.chain.globalCommandQueue.toList.length = w.owed fun _ => true
  once : ∀ n, w.enqueuing (· == n) + w.enqueued (· == n) ≤ if n < w.clicks then 1 else 0
  sound : ∀ ct ∈ w.tasks, ct.2.Sound
  pages : ∀ c, StartsAtZero (w.pages c)

section Invariant

variable [DecidableEq C] [JsArith K] {w w' : World C K} {l : WorldAction C K}

omit [DecidableEq C] [JsArith K] in
theorem PullsMatch.initial {signer : Runtime.AccountId} {chain : Swarm.Storage Runtime}
    (hqueue : chain.globalCommandQueue.toList = []) :
    PullsMatch (World.opened signer chain : World C K) where
  matched _ := rfl
  queue := congrArg List.length hqueue
  once _ := Nat.zero_le _
  sound := nofun
  pages _ := .initial

omit [DecidableEq C] [JsArith K] in
/-- What a stretch of a flow does to what is outstanding. -/
theorem PullsMatch.leaves {c : C} {e : Effect K} {kept : List (C × Task K)} {clicks : ℕ}
    (h : PullsMatch w) (hG : PullsFollow w l) (hst : w.Stretch l c e kept clicks) :
    (∀ φ, kept.countP (fun ct => ct.2.owes φ) + e.2.countP (Task.owes φ) = w.owed φ) ∧
    (∀ n, kept.countP (fun ct => ct.2.enqueues (· == n)) + e.2.countP (Task.enqueues (· == n)) ≤
      w.enqueuing (· == n) + if n = w.clicks ∧ n < clicks then 1 else 0) ∧
    (∀ ct ∈ kept, ct.2.Sound) ∧ (∀ t ∈ e.2, t.Sound) ∧ w.clicks ≤ clicks := by
  cases hst with
  | page _ a ha =>
    exact ⟨fun _ => rfl, fun _ => Nat.le_add_right _ _, h.sound, nofun, Nat.le_refl _⟩
  | clickRegister =>
    have hleaves := (w.pages c).closure.leaves_registerRobot
    refine ⟨fun φ => ?_, fun n => ?_, h.sound, hleaves.sound, Nat.le_refl _⟩
    · rw [hleaves.owed]
      rfl
    · exact Nat.add_le_add_left ((hleaves.enqueuing _).trans (Nat.zero_le _)) _
  | clickCanvas _ x y =>
    have hleaves := Closure.leaves_handleCanvasClick (h.pages c).onClickRef w.clicks x y
    refine ⟨fun φ => ?_, fun n => ?_, h.sound, hleaves.sound, Nat.le_succ _⟩
    · rw [hleaves.owed]
      rfl
    · refine Nat.add_le_add_left ((hleaves.enqueuing _).trans ?_) _
      -- the command of this click and of no other
      by_cases hn : n = w.clicks
      · have hroom : (if n = w.clicks ∧ n < w.clicks + 1 then 1 else 0) = 1 :=
          if_pos ⟨hn, by omega⟩
        rw [hroom]
        split_ifs <;> omega
      · have hother : (w.clicks == n) = false := beq_eq_false_iff_ne.mpr (Ne.symm hn)
        rw [hother]
        exact Nat.zero_le _
  | task i ok _ t _ ht he =>
    -- the guard excludes that the submission of a pull is refused
    have hmem : (c, t) ∈ w.tasks := List.mem_of_getElem? ht
    have hleaves := Task.leaves_react he (h.sound _ hmem) fun hok click id heq =>
      hG hok c click id (by rw [ht, heq])
    refine ⟨fun φ => ?_, fun n => ?_, ?_, hleaves.sound, Nat.le_refl _⟩
    · rw [hleaves.owed]
      exact countP_eraseIdx ht fun ct => ct.2.owes φ
    · have hall := countP_eraseIdx ht fun ct => ct.2.enqueues (· == n)
      have hnew := hleaves.enqueuing (· == n)
      unfold World.enqueuing
      dsimp only at hall hnew
      omega
    · exact fun ct hct => h.sound ct (List.mem_of_mem_eraseIdx hct)

/-- **Invariant preservation, stretches of flows.** -/
theorem PullsMatch.after {c : C} {e : Effect K} {kept : List (C × Task K)} {clicks : ℕ} {p : Page K}
    (h : PullsMatch w) (hG : PullsFollow w l) (hst : w.Stretch l c e kept clicks)
    (hp : System.runAct Page.act (w.pages c) e.1 = some p) :
    PullsMatch (w.after c p kept e.2 clicks) := by
  obtain ⟨howed, henqueuing, hkept, hnew, hclicks⟩ := h.leaves hG hst
  have howed' : ∀ φ, (w.after c p kept e.2 clicks).owed φ = w.owed φ := fun φ =>
    (World.countP_tasks_after fun ct => ct.2.owes φ).trans (howed φ)
  refine ⟨fun φ => ?_, ?_, fun n => ?_, ?_, fun d => ?_⟩
  · rw [howed']
    exact h.matched φ
  · rw [howed']
    exact h.queue
  · have hleft := henqueuing n
    have honce := h.once n
    -- a new click has a number that none had before
    have hafter : (w.after c p kept e.2 clicks).enqueuing (· == n) =
        kept.countP (fun ct => ct.2.enqueues (· == n)) + e.2.countP (Task.enqueues (· == n)) :=
      World.countP_tasks_after _
    rw [hafter]
    change _ + w.enqueued (· == n) ≤ if n < clicks then 1 else 0
    split_ifs at hleft honce ⊢ <;> omega
  · intro ct hct
    rcases List.mem_append.mp hct with hct | hct
    · exact hkept ct hct
    · obtain ⟨t, ht, rfl⟩ := List.mem_map.mp hct
      exact hnew t ht
  · by_cases hd : d = c
    · subst hd
      rw [World.after_pages_self]
      have hrun : (pageSystem K).Run (w.pages d) e.1 p := .of_runAct hp
      exact (h.pages d).run hrun
    · rw [World.after_pages_of_ne hd]
      exact h.pages d

omit [DecidableEq C] [JsArith K] in
/-- An inclusion keeps the invariant if its outcome balances: what is enqueued is owed, what is
owed no longer is pulled, and the queue changes with what is owed. -/
theorem PullsMatch.includeTx_of {i : ℕ} {c : C} {tx : Tx K}
    {error : Option (DispatchError Swarm.Error)} (h : PullsMatch w)
    (hi : w.tasks[i]? = some (c, .pool tx))
    (herror : Swarm.dispatchError w.chain ⟨.signed w.signer, tx.call⟩ = error)
    (hbalance : ∀ φ, (if Inclusion.isEnqueue φ ⟨c, tx, error⟩ then 1 else 0) +
        (if (Task.pool tx).owes φ then 1 else 0) =
      (if Inclusion.isPull φ ⟨c, tx, error⟩ then 1 else 0) +
        (if (Task.inBlock tx error).owes φ then 1 else 0))
    (honce : ∀ φ, (if Inclusion.isEnqueue φ ⟨c, tx, error⟩ then 1 else 0) ≤
      if (Task.pool tx).enqueues φ then 1 else 0)
    (hqueue : (w.includeTx i c tx).chain.globalCommandQueue.toList.length +
        (if (Task.pool tx).owes fun _ => true then 1 else 0) =
      w.chain.globalCommandQueue.toList.length +
        (if (Task.inBlock tx error).owes fun _ => true then 1 else 0))
    (hsound : (Task.inBlock tx error).Sound) : PullsMatch (w.includeTx i c tx) := by
  -- how the four counts change
  have howed : ∀ φ, (w.includeTx i c tx).owed φ + (if (Task.pool tx).owes φ then 1 else 0) =
      w.owed φ + if (Task.inBlock tx error).owes φ then 1 else 0 := by
    intro φ
    rw [← herror]
    exact World.countP_tasks_includeTx hi fun ct => ct.2.owes φ
  have henqueuing : ∀ φ, (w.includeTx i c tx).enqueuing φ +
      (if (Task.pool tx).enqueues φ then 1 else 0) = w.enqueuing φ := fun φ =>
    World.countP_tasks_includeTx hi fun ct => ct.2.enqueues φ
  have henqueued : ∀ φ, (w.includeTx i c tx).enqueued φ =
      w.enqueued φ + if Inclusion.isEnqueue φ ⟨c, tx, error⟩ then 1 else 0 := by
    intro φ
    rw [← herror]
    exact w.countP_blocks_includeTx i c tx (Inclusion.isEnqueue φ)
  have hpulled : ∀ φ, (w.includeTx i c tx).pulled φ =
      w.pulled φ + if Inclusion.isPull φ ⟨c, tx, error⟩ then 1 else 0 := by
    intro φ
    rw [← herror]
    exact w.countP_blocks_includeTx i c tx (Inclusion.isPull φ)
  refine ⟨fun φ => ?_, ?_, fun n => ?_, ?_, h.pages⟩
  · have hmatched := h.matched φ
    have hφ := howed φ
    have hbal := hbalance φ
    rw [henqueued, hpulled]
    omega
  · have hlen := h.queue
    have hall := howed fun _ => true
    omega
  · have hn := h.once n
    have hleft := henqueuing (· == n)
    have hnew := honce (· == n)
    rw [henqueued]
    change _ ≤ if n < w.clicks then 1 else 0
    omega
  · intro ct hct
    rcases List.mem_append.mp hct with hct | hct
    · exact h.sound ct (List.mem_of_mem_eraseIdx hct)
    · obtain rfl := List.mem_singleton.mp hct
      rw [herror]
      exact hsound

omit [DecidableEq C] [JsArith K] in
/-- **Invariant preservation, inclusions.** -/
theorem PullsMatch.includeTx {i : ℕ} {c : C} {tx : Tx K} (h : PullsMatch w)
    (hG : PullsFollow w (.includeTx i)) (hi : w.tasks[i]? = some (c, .pool tx)) :
    PullsMatch (w.includeTx i c tx) := by
  have hguard := hG c tx hi
  have hsound : (Task.pool tx).Sound := h.sound _ (List.mem_of_getElem? hi)
  have hchain : (w.includeTx i c tx).chain =
      Exec.next Swarm.dispatch w.chain ⟨.signed w.signer, tx.call⟩ := rfl
  rcases World.include_cases w.chain w.signer tx.call with
    ⟨s', hacc, hnext, herror⟩ | ⟨e, href, hnext, herror⟩
  -- the call succeeds: an enqueue becomes an owed pull, and a pull is no longer owed
  · refine h.includeTx_of hi herror ?_ ?_ ?_ ?_
    · intro φ
      cases tx <;> exact Nat.add_comm _ _
    · intro φ
      cases tx <;> exact Nat.le_refl _
    · rw [hchain, hnext]
      cases tx with
      | register id =>
        cases hacc
        rfl
      | enqueue click command k =>
        cases hacc with
        | enqueueCommand _ q hq =>
          rw [hq, List.length_append]
          rfl
      | pull click id =>
        cases hacc with
        | pullNext _ cmd q hr hq =>
          rw [hq, List.length_cons]
          rfl
    · cases tx with
      | register id => trivial
      | pull click id => trivial
      | enqueue click command k =>
        cases hacc with
        | enqueueCommand _ q hq =>
          -- there was room for the command, so the guard says that the render shows a robot
          have hroom : w.chain.globalCommandQueue.toList.length < Runtime.MaxGlobalCommands := by
            have hle := q.length_le
            rw [hq, List.length_append, List.length_singleton] at hle
            exact hle
          obtain ⟨r, rest, hrobots⟩ := hguard hroom
          exact ⟨hsound.1, r, rest, hrobots, hsound.2 r rest hrobots⟩
  -- the call fails: then it is no pull
  · cases tx with
    | pull click id =>
      -- the robot is registered, and the queue holds a command: the one this pull is owed
      exfalso
      cases href with
      | badOrigin _ ho => exact ho _ rfl
      | invalidRobotId _ _ hr => exact hr hguard
      | queueEmpty _ _ _ hempty =>
        have hlen := h.queue
        have hall := countP_eraseIdx hi fun ct => ct.2.owes fun _ => true
        have howes : ((Task.pool (.pull click id) : Task K).owes fun _ => true) = true := rfl
        rw [hempty, List.length_nil] at hlen
        unfold World.owed at hlen
        dsimp only at hall
        rw [howes, if_pos rfl] at hall
        omega
    | register id =>
      refine h.includeTx_of hi herror (fun _ => rfl) (fun _ => Nat.le_refl _) ?_ trivial
      rw [hchain, hnext]
      rfl
    | enqueue click command k =>
      refine h.includeTx_of hi herror (fun _ => rfl) (fun _ => Nat.zero_le _) ?_ trivial
      rw [hchain, hnext]
      rfl

theorem PullsMatch.act (h : PullsMatch w) (hG : PullsFollow w l) (hstep : w.act l = some w') :
    PullsMatch w' := by
  rcases World.act_cases hstep with ⟨c, e, kept, clicks, p, hst, hp, rfl⟩ | ⟨i, c, tx, rfl, hi, rfl⟩
  · exact h.after hG hst hp
  · exact h.includeTx hG hi

/-! ### Whole runs -/

/-- From when the queue is empty on, what is pulled is what is enqueued, in its order. -/
theorem pulled_prefix_enqueued {ls : List (WorldAction C K)} (h : (worldSystem C K).Run w ls w')
    (hqueue : w.chain.globalCommandQueue.toList = []) :
    ∃ log, w'.chain.events = w.chain.events ++ log ∧
      Swarm.pulledCommands log <+: Swarm.enqueuedCommands log := by
  obtain ⟨xs, hxs⟩ := World.run_chain h
  obtain ⟨log, hlog, hfifo⟩ := Swarm.run_fifo w.chain xs
  rw [← hxs] at hlog hfifo
  rw [hqueue, List.nil_append] at hfifo
  exact ⟨log, hlog, _, hfifo⟩

/-- **Enqueues and pulls match up.** Take any number of pages on a chain whose queue starts empty
and whose pallet only they call. In every run in which an enqueue that succeeds was clicked in a
render that shows a robot, the submission of a pull is not refused, and the robot of a pull is
registered when the pull is included: whenever no transaction and no callback is outstanding, the
queue is empty, every click that enqueued a command has pulled exactly one, and from there on only
commands that were enqueued later are pulled. -/
theorem queue_empty_when_quiet {w₀ : World C K} {ls : List (WorldAction C K)}
    (h₀ : (worldSystem C K).init w₀) (hqueue : w₀.chain.globalCommandQueue.toList = [])
    (h : ((worldSystem C K).restrict PullsFollow).Run w₀ ls w) (hquiet : w.Quiet) :
    w.chain.globalCommandQueue.toList = [] ∧
    (∀ click, w.pulled (· == click) = w.enqueued (· == click) ∧ w.enqueued (· == click) ≤ 1) ∧
    (∀ ls' w', (worldSystem C K).Run w ls' w' →
      ∃ log, w'.chain.events = w.chain.events ++ log ∧
        Swarm.pulledCommands log <+: Swarm.enqueuedCommands log) := by
  have hmatch₀ : PullsMatch w₀ := by
    have hopened : w₀ = World.opened w₀.signer w₀.chain := h₀
    rw [hopened]
    exact .initial hqueue
  have hmatch : PullsMatch w :=
    h.invariant hmatch₀ fun _ _ _ hw hstep => PullsMatch.act hw hstep.1 hstep.2
  -- nothing is outstanding, so no pull is owed
  have hempty : w.chain.globalCommandQueue.toList = [] := by
    have hlen := hmatch.queue
    rw [hquiet.owed] at hlen
    exact List.length_eq_zero_iff.mp hlen
  refine ⟨hempty, fun click => ?_, fun ls' w' hrun => pulled_prefix_enqueued hrun hempty⟩
  have hmatched := hmatch.matched (· == click)
  have honce := hmatch.once click
  rw [hquiet.owed] at hmatched
  refine ⟨hmatched.symm, ?_⟩
  split_ifs at honce <;> omega

end Invariant

/-- A page registers a robot and sends one move command. -/
theorem queue_empty_after_click : ∃ w : World Unit ℝ, w.enqueued (· == 0) = 1 ∧
    w.chain.globalCommandQueue.toList = [] ∧
    (∀ click, w.pulled (· == click) = w.enqueued (· == click) ∧ w.enqueued (· == click) ≤ 1) ∧
    (∀ ls' w', (worldSystem Unit ℝ).Run w ls' w' →
      ∃ log, w'.chain.events = w.chain.events ++ log ∧
        Swarm.pulledCommands log <+: Swarm.enqueuedCommands log) := by
  have hregister : (worldSystem Unit ℝ).Run (World.opened 0 (Swarm.Storage.empty Runtime))
      [.page () .connect, .page () .commit, .page () .effects, .clickRegister (), .task 0 true,
        .task 0 true, .task 1 true] _ := System.Run.of_runAct rfl
  have h₀ := hregister.to_restrict (G := PullsFollow) (by simp [PullsFollow])
  -- the registration is included, and the robot is clicked away
  have h₁ := h₀.extend (.includeTx 0) (by rintro c tx ⟨⟩; trivial) rfl
    [.task 0 true, .task 0 true, .page () .commit, .page () .effects, .clickCanvas () 100 100,
      .task 0 true] rfl (by simp [PullsFollow])
  -- the command is enqueued, and its callback sends the pull
  have h₂ := h₁.extend (.includeTx 0) (by rintro c tx ⟨⟩ -; exact ⟨_, _, rfl⟩) rfl
    [.task 0 true, .task 0 true, .task 0 true] rfl (by simp [PullsFollow])
  -- the command is pulled
  have h₃ := h₂.extend (.includeTx 0)
    (by rintro c tx ⟨⟩; exact Finset.mem_insert_self 0 ∅) rfl [.task 0 true, .task 0 true] rfl
    (by simp [PullsFollow])
  have hopened : (worldSystem Unit ℝ).init (World.opened 0 (Swarm.Storage.empty Runtime)) := rfl
  exact ⟨_, rfl, queue_empty_when_quiet hopened rfl h₃ nofun⟩

/-- One click on a page without robots leaves its command in the queue for good. -/
theorem enqueue_without_pull :
    ¬ ∀ (w₀ w : World Unit ℝ) ls, (worldSystem Unit ℝ).init w₀ →
      w₀.chain.globalCommandQueue.toList = [] → (worldSystem Unit ℝ).Run w₀ ls w → w.Quiet →
        w.chain.globalCommandQueue.toList = [] := by
  intro h
  have hempty := h (World.opened 0 (Swarm.Storage.empty Runtime)) _
    [.page () .connect, .page () .commit, .page () .effects, .clickCanvas () 100 100, .task 0 true,
      .includeTx 0, .task 0 true, .task 0 true] rfl rfl (System.Run.of_runAct rfl) nofun
  cases hempty

end SwarmBase
