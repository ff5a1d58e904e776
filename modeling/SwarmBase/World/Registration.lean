import SwarmBase.Framework.Others
import SwarmBase.Ui.RobotList
import SwarmBase.World.Model

/-!
# Registrations of the pages

A Register click sends the number of robots in the render it was made in, and once the
transaction is accepted the page appends a robot whose id is the number of robots it has by then.
The two are the same only if no other registration of the page is accepted in between. If they
are the same each time, the ids that were accepted are `0, 1, 2, …`, one for each robot that is
shown or about to be (`Registering`), and every robot that is shown is registered once the
accepted transactions are included.

* `displayed_registered` — the theorem, for any page among any number of them;
* `displayed_not_registered` — two clicks that overlap.
-/

namespace SwarmBase

open Framework

variable {C K : Type}

/-! ### Ids that were accepted -/

/-- The id of a registration in the pool. -/
def Task.pooled? : Task K → Option UInt32
  | .pool (.register id) => some id
  | _ => none

def Task.isSetRobots : Task K → Bool
  | .setRobots => true
  | _ => false

/-- The id of a registration that succeeded. -/
def Inclusion.registered? : Inclusion C K → Option UInt32
  | ⟨_, .register id, none⟩ => some id
  | _ => none

namespace World

variable [DecidableEq C]

/-- The ids the page `c` registered successfully, in order. -/
def registeredIds (w : World C K) (c : C) : List UInt32 :=
  w.blocks.filterMap fun b => if b.client = c then b.registered? else none

/-- The ids of the registrations of `c` in the pool. -/
def pooledIds (w : World C K) (c : C) : List UInt32 :=
  w.tasks.filterMap fun ct => if ct.1 = c then ct.2.pooled? else none

/-- The registrations of `c` that were accepted and whose robot is not appended yet. -/
def unshown (w : World C K) (c : C) : ℕ :=
  w.tasks.countP fun ct => ct.1 = c ∧ ct.2.isSetRobots

end World

/-- The condition on the steps of a run, for the page `c`. When a registration of `c` is accepted,
the id it carries is the number of robots the page has, counting those that are about to be
appended; and the ticks of `c` keep its robots. -/
def RegistersNext [DecidableEq C] [JsArith K] (c : C) (w : World C K) : WorldAction C K → Prop
  | .task i ok => ok = true → ∀ id, w.tasks[i]? = some (c, .submit (.register id)) →
    ∃ rs, (w.pages c).robots.latest.value = some (.list rs) ∧ id.toNat = rs.length + w.unshown c
  | .page d a => d = c → KeepsRobots (w.pages c) a
  | _ => True

/-! ### One stretch of a flow -/

/-- What a stretch of a flow means for the registrations: the id that is accepted in it, and how
many robots are appended. -/
structure Registers (e : Effect K) (accepted : Option UInt32) (appended : ℕ) : Prop where
  pooled : e.2.filterMap Task.pooled? = accepted.toList
  waiting : e.2.countP Task.isSetRobots = accepted.toList.length
  appends : e.1.countP PageAction.isSetRobots = appended
  no_tick : ∀ a ∈ e.1, a ≠ .tick

/-- The id that is accepted when a task goes on. -/
def Task.accepted? : Task K → Bool → Option UInt32
  | .submit (.register id), true => some id
  | _, _ => none

theorem Registers.nil : Registers (([], []) : Effect K) none 0 := ⟨rfl, rfl, rfl, nofun⟩

/-- A stretch that accepts and appends nothing: the tasks it leaves are other ones, and so are its
page updates. -/
theorem Registers.none_of {e : Effect K} (hts : ∀ t ∈ e.2, t.pooled? = none ∧ t.isSetRobots = false)
    (has : ∀ a ∈ e.1, a ≠ .tick ∧ a.isSetRobots = false) : Registers e none 0 where
  pooled := List.filterMap_eq_nil_iff.mpr fun t ht => (hts t ht).1
  waiting := List.countP_eq_zero.mpr fun t ht => by simp [(hts t ht).2]
  appends := List.countP_eq_zero.mpr fun a ha => by simp [(has a ha).2]
  no_tick a ha := (has a ha).1

theorem Closure.registers_registerRobot (k : Closure K) : Registers k.registerRobot none 0 := by
  unfold Closure.registerRobot
  dsimp only
  generalize u32OfInt _ = o
  refine .none_of ?_ ?_ <;> cases k.ready <;> cases o <;>
    simp [Task.pooled?, Task.isSetRobots, PageAction.isSetRobots]

theorem Closure.registers_handleCanvasClick (k : Closure K) (click : ℕ) (x y : ℤ) :
    Registers (k.handleCanvasClick click x y) none 0 := by
  unfold Closure.handleCanvasClick
  generalize encodeGoToLocation x y = o
  refine .none_of ?_ ?_ <;> cases k.ready <;> cases o <;>
    simp [Task.pooled?, Task.isSetRobots, PageAction.isSetRobots]

theorem Closure.registers_commandPull (k : Closure K) (click : ℕ) :
    Registers (k.commandPull click) none 0 := by
  unfold Closure.commandPull
  refine .none_of ?_ ?_
  · intro t ht
    split_ifs at ht
    · cases ht
    · split at ht
      · cases ht
      · generalize u32OfInt _ = o at ht
        obtain ⟨id, -, rfl⟩ := List.mem_map.mp ht
        exact ⟨rfl, rfl⟩
      · cases ht
  · intro a ha
    split_ifs at ha
    · cases ha
    · split at ha
      · cases ha
      · obtain rfl := List.mem_singleton.mp ha
        exact ⟨nofun, rfl⟩
      · obtain rfl := List.mem_singleton.mp ha
        exact ⟨nofun, rfl⟩

theorem Tx.registers_onError (error : DispatchError Swarm.Error) (tx : Tx K) :
    Registers (tx.onError error) none 0 := by
  refine .none_of ?_ ?_ <;> cases tx <;>
    simp [Tx.onError, PageAction.isSetRobots]

theorem Tx.registers_onFinalized (tx : Tx K) : Registers tx.onFinalized none 0 := by
  cases tx with
  | enqueue click command k => exact k.registers_commandPull click
  | register | pull => exact .none_of nofun (by simp [Tx.onFinalized, PageAction.isSetRobots])

/-- **One stretch of a flow.** Only the acceptance of a registration puts one into the pool, and
only the end of `registerRobot` appends a robot. -/
theorem Task.registers_react {t : Task K} {ok : Bool} {e : Effect K} (ht : t.react ok = some e) :
    t.pooled? = none ∧ Registers e (t.accepted? ok) (if t.isSetRobots then 1 else 0) := by
  cases Task.reacts ht with
  | nonce id => exact ⟨rfl, .none_of (by simp [Task.pooled?, Task.isSetRobots]) nofun⟩
  | noNonce id => exact ⟨rfl, .nil⟩
  | register id => exact ⟨rfl, rfl, rfl, rfl, nofun⟩
  | submit tx htx =>
    -- not a registration
    cases tx with
    | register id => exact absurd rfl (htx id)
    | enqueue | pull =>
      exact ⟨rfl, .none_of (by simp [Task.pooled?, Task.isSetRobots]) nofun⟩
  | enqueueRefused => exact ⟨rfl, .none_of nofun (by simp [PageAction.isSetRobots])⟩
  | refused tx htx => cases tx <;> exact ⟨rfl, .nil⟩
  | setRobots => exact ⟨rfl, rfl, rfl, rfl, by simp⟩
  | inBlock tx => exact ⟨rfl, .none_of (by simp [Task.pooled?, Task.isSetRobots]) nofun⟩
  | inBlockError tx error =>
    have herror := tx.registers_onError error
    exact ⟨rfl, rfl, rfl, herror.appends, herror.no_tick⟩
  | finalized tx => exact ⟨rfl, tx.registers_onFinalized⟩
  | finalizedError tx error => exact ⟨rfl, tx.registers_onError error⟩

/-! ### The invariant -/

/-- The ids that were accepted from the page `c` are `0, 1, 2, …`, one for each robot that is
shown or about to be, and those of them that were included are registered. -/
structure Registering [DecidableEq C] (c : C) (w : World C K) : Prop where
  kept : RobotsKept (w.pages c)
  ids : ((w.registeredIds c ++ w.pooledIds c).map UInt32.toNat).Perm
    (List.range ((w.pages c).robots.latest.appends + w.unshown c))
  registered : ∀ id ∈ w.registeredIds c, id ∈ w.chain.registeredRobots

section Invariant

variable [DecidableEq C] {c d : C} {w w' : World C K} {kept : List (C × Task K)} {e : Effect K}
  {clicks : ℕ} {p : Page K} {l : WorldAction C K}

theorem pooledIds_after {ts : List (Task K)} : (w.after d p kept ts clicks).pooledIds c =
    (kept.filterMap fun ct => if ct.1 = c then ct.2.pooled? else none) ++
      if d = c then ts.filterMap Task.pooled? else [] := by
  unfold World.pooledIds
  rw [World.after_tasks, List.filterMap_append, List.filterMap_map]
  congr 1
  split_ifs with hd <;> simp [hd]

theorem unshown_after {ts : List (Task K)} : (w.after d p kept ts clicks).unshown c =
    (kept.countP fun ct => ct.1 = c ∧ ct.2.isSetRobots) +
      if d = c then ts.countP Task.isSetRobots else 0 := by
  unfold World.unshown
  rw [World.countP_tasks_after]
  congr 1
  split_ifs with hd <;> simp [hd]

/-- What a stretch of a flow of the page `d` keeps outstanding, and what it accepts and appends. -/
structure Proceeds (w : World C K) (l : WorldAction C K) (d : C) (e : Effect K)
    (kept : List (C × Task K)) (accepted : Option UInt32) (appended : ℕ) : Prop where
  pooled : e.2.filterMap Task.pooled? = accepted.toList
  waiting : e.2.countP Task.isSetRobots = accepted.toList.length
  appends : e.1.countP PageAction.isSetRobots = appended
  kept_pooled : ∀ c, (kept.filterMap fun ct => if ct.1 = c then ct.2.pooled? else none).Perm
    (w.pooledIds c)
  kept_waiting : ∀ c, (kept.countP fun ct => ct.1 = c ∧ ct.2.isSetRobots) +
    (if d = c then appended else 0) = w.unshown c
  accepted : ∀ id, accepted = some id →
    ∃ i, l = .task i true ∧ w.tasks[i]? = some (d, .submit (.register id))

/-- A stretch that takes up no task. -/
theorem Proceeds.of_registers (h : Registers e none 0) : Proceeds w l d e w.tasks none 0 where
  pooled := h.pooled
  waiting := h.waiting
  appends := h.appends
  kept_pooled _ := .rfl
  kept_waiting c := by rw [ite_self]; rfl
  accepted := nofun

theorem exists_proceeds [JsArith K] (hst : w.Stretch l d e kept clicks) :
    ∃ accepted appended, Proceeds w l d e kept accepted appended := by
  cases hst with
  | page _ a ha =>
    have hnot : a.isSetRobots = false := by
      cases a <;> first | rfl | cases ha
    refine ⟨none, 0, ⟨rfl, rfl, ?_, fun _ => .rfl, fun c => ?_, nofun⟩⟩
    · rw [List.countP_singleton, hnot]
      rfl
    · rw [ite_self]
      rfl
  | clickRegister => exact ⟨none, 0, .of_registers (Closure.registers_registerRobot _)⟩
  | clickCanvas _ x y =>
    exact ⟨none, 0, .of_registers (Closure.registers_handleCanvasClick _ _ x y)⟩
  | task i ok _ t _ ht he =>
    obtain ⟨hpooled, hreg⟩ := Task.registers_react he
    refine ⟨_, _, ⟨hreg.pooled, hreg.waiting, hreg.appends, fun c => ?_, fun c => ?_, ?_⟩⟩
    · -- the task that went on was not in the pool
      have hperm := filterMap_eraseIdx ht fun ct => if ct.1 = c then ct.2.pooled? else none
      dsimp only at hperm
      rw [hpooled, ite_self] at hperm
      exact hperm.symm
    · have hall := countP_eraseIdx ht fun ct => ct.1 = c ∧ ct.2.isSetRobots
      unfold World.unshown
      rw [← hall]
      congr 1
      by_cases hd : d = c <;> simp [hd]
    · intro id hid
      refine ⟨i, ?_⟩
      unfold Task.accepted? at hid
      split at hid
      · obtain rfl := Option.some.inj hid
        exact ⟨rfl, ht⟩
      · cases hid

variable [JsArith K]

/-- The page steps of a stretch keep the robots. -/
theorem restrict_run_of_stretch (hG : RegistersNext c w l) (hst : w.Stretch l c e kept clicks)
    (hp : System.runAct Page.act (w.pages c) e.1 = some p) :
    ((pageSystem K).restrict KeepsRobots).Run (w.pages c) e.1 p := by
  have hrun : (pageSystem K).Run (w.pages c) e.1 p := .of_runAct hp
  -- no flow ticks
  have hflow : Registers e none 0 → ((pageSystem K).restrict KeepsRobots).Run (w.pages c) e.1 p :=
    fun h => hrun.to_restrict fun a ha _ htick => absurd htick (h.no_tick a ha)
  cases hst with
  | page _ a ha =>
    obtain ⟨q, hq, hrest⟩ := Option.bind_eq_some_iff.mp hp
    obtain rfl := Option.some.inj hrest
    exact .single ⟨hG rfl, hq⟩
  | clickRegister => exact hflow (Closure.registers_registerRobot _)
  | clickCanvas _ x y => exact hflow (Closure.registers_handleCanvasClick _ _ x y)
  | task i ok _ t _ ht he =>
    obtain ⟨-, hreg⟩ := Task.registers_react he
    exact hrun.to_restrict fun a ha _ htick => absurd htick (hreg.no_tick a ha)

/-- **Invariant preservation, stretches of flows.** -/
theorem Registering.after (h : Registering c w) (hG : RegistersNext c w l)
    (hst : w.Stretch l d e kept clicks) (hp : System.runAct Page.act (w.pages d) e.1 = some p) :
    Registering c (w.after d p kept e.2 clicks) := by
  obtain ⟨accepted, appended, hpr⟩ := exists_proceeds hst
  have hkeptIds := hpr.kept_pooled c
  have hkeptWaiting := hpr.kept_waiting c
  by_cases hd : d = c
  · subst hd
    -- the page: as many robots more as its steps append
    obtain ⟨hkept', happends⟩ := h.kept.run (restrict_run_of_stretch hG hst hp)
    rw [hpr.appends] at happends
    rw [if_pos rfl] at hkeptWaiting
    refine ⟨by rwa [World.after_pages_self], ?_, h.registered⟩
    rw [pooledIds_after, unshown_after, World.after_pages_self, if_pos rfl, if_pos rfl, hpr.pooled,
      hpr.waiting, happends]
    have hold := ((hkeptIds.append_left (w.registeredIds d)).map UInt32.toNat).trans h.ids
    change ((w.registeredIds d ++ _).map UInt32.toNat).Perm _
    -- a robot that is appended now was about to be
    have hcount : ∀ n, (w.pages d).robots.latest.appends + appended +
        ((kept.countP fun ct => ct.1 = d ∧ ct.2.isSetRobots) + n) =
        (w.pages d).robots.latest.appends + w.unshown d + n := by
      intro n
      omega
    rw [hcount]
    cases accepted with
    | none =>
      rw [Option.toList_none, List.append_nil, List.length_nil, Nat.add_zero]
      exact hold
    | some id =>
      -- the id is the next one
      obtain ⟨i, rfl, hi⟩ := hpr.accepted id rfl
      obtain ⟨rs, hrs, hid⟩ := hG rfl id hi
      rw [h.kept.latest.length_eq hrs] at hid
      rw [Option.toList_some, List.length_singleton, ← List.append_assoc, List.map_append,
        List.map_singleton, hid, List.range_succ]
      exact hold.append_right _
  · -- another page
    refine ⟨by rw [World.after_pages_of_ne (Ne.symm hd)]; exact h.kept, ?_, h.registered⟩
    rw [if_neg hd] at hkeptWaiting
    rw [pooledIds_after, unshown_after, World.after_pages_of_ne (Ne.symm hd), if_neg hd, if_neg hd,
      List.append_nil, hkeptWaiting]
    exact ((hkeptIds.append_left _).map _).trans h.ids

omit [DecidableEq C] [JsArith K] in
/-- A registration in the pool is included as one that succeeded, and nothing else is. -/
theorem registered?_included (tx : Tx K) (d : C) (w : World C K) :
    Inclusion.registered? ⟨d, tx, Swarm.dispatchError w.chain ⟨.signed w.signer, tx.call⟩⟩ =
      (Task.pool tx).pooled? := by
  cases tx with
  | register id =>
    have hnone := (World.include_register w.chain w.signer id).2
    unfold Tx.call
    dsimp only
    rw [hnone]
    rfl
  | enqueue => rfl
  | pull => rfl

omit [JsArith K] in
theorem registeredIds_includeTx (i : ℕ) (tx : Tx K) : (w.includeTx i d tx).registeredIds c =
    w.registeredIds c ++ (if d = c then (Task.pool tx).pooled? else none).toList := by
  unfold World.registeredIds World.includeTx
  dsimp only
  rw [List.filterMap_append, filterMap_singleton, registered?_included]

omit [JsArith K] in
/-- The ids that were accepted stay the same when one of them is included. -/
theorem includeTx_ids {i : ℕ} {tx : Tx K} (hi : w.tasks[i]? = some (d, .pool tx)) :
    ((w.includeTx i d tx).registeredIds c ++ (w.includeTx i d tx).pooledIds c).Perm
      (w.registeredIds c ++ w.pooledIds c) := by
  have hpooled : (w.includeTx i d tx).pooledIds c =
      (w.tasks.eraseIdx i).filterMap fun ct => if ct.1 = c then ct.2.pooled? else none := by
    unfold World.pooledIds World.includeTx
    dsimp only
    rw [List.filterMap_append, filterMap_singleton]
    simp [Task.pooled?]
  -- the id goes from the pool to the block
  have hperm := filterMap_eraseIdx hi fun ct => if ct.1 = c then ct.2.pooled? else none
  rw [registeredIds_includeTx, hpooled, List.append_assoc]
  exact hperm.symm.append_left _

omit [JsArith K] in
theorem includeTx_unshown {i : ℕ} {tx : Tx K} (hi : w.tasks[i]? = some (d, .pool tx)) (c : C) :
    (w.includeTx i d tx).unshown c = w.unshown c := by
  have hall := World.countP_tasks_includeTx hi fun ct => ct.1 = c ∧ ct.2.isSetRobots
  have hpool : decide (d = c ∧ (Task.pool tx).isSetRobots) = false := by simp [Task.isSetRobots]
  have hblock : ∀ error, decide (d = c ∧ (Task.inBlock tx error).isSetRobots) = false := by
    simp [Task.isSetRobots]
  rwa [hpool, hblock] at hall

omit [JsArith K] in
/-- **Invariant preservation, inclusions.** -/
theorem Registering.includeTx {i : ℕ} {tx : Tx K} (h : Registering c w)
    (hi : w.tasks[i]? = some (d, .pool tx)) : Registering c (w.includeTx i d tx) := by
  refine ⟨h.kept, ?_, ?_⟩
  · rw [includeTx_unshown hi]
    exact ((includeTx_ids hi).map _).trans h.ids
  · intro id hid
    rw [registeredIds_includeTx] at hid
    rcases List.mem_append.mp hid with hold | hnew
    · exact World.registered_subset_include _ _ _ (h.registered id hold)
    · -- the registration that is included
      cases tx with
      | register id' =>
        split_ifs at hnew
        · obtain rfl : id = id' := List.mem_singleton.mp hnew
          exact (World.include_register w.chain w.signer id).1
        · cases hnew
      | enqueue => split_ifs at hnew <;> cases hnew
      | pull => split_ifs at hnew <;> cases hnew

theorem Registering.act (h : Registering c w) (hG : RegistersNext c w l)
    (hstep : w.act l = some w') : Registering c w' := by
  rcases World.act_cases hstep with ⟨d, e, kept, clicks, p, hst, hp, rfl⟩ | ⟨i, d, tx, rfl, hi, rfl⟩
  · exact h.after hG hst hp
  · exact h.includeTx hi

omit [JsArith K] in
theorem Registering.initial (signer : Runtime.AccountId) (chain : Swarm.Storage Runtime) :
    Registering c (World.opened signer chain : World C K) :=
  ⟨.initial, .rfl, nofun⟩

/-! ### Whole runs -/

omit [JsArith K] in
/-- Once the registrations of `c` are included, the ids that are registered are `0, 1, 2, …`, one
for each robot that is shown or about to be. -/
theorem Registering.registeredIds_perm (h : Registering c w)
    (hincluded : ∀ id, (c, .pool (.register id)) ∉ w.tasks) :
    ((w.registeredIds c).map UInt32.toNat).Perm
      (List.range ((w.pages c).robots.latest.appends + w.unshown c)) := by
  have hpooled : w.pooledIds c = [] := by
    refine List.filterMap_eq_nil_iff.mpr ?_
    rintro ⟨d, t⟩ ht
    dsimp only
    split_ifs with hd
    · subst hd
      unfold Task.pooled?
      split
      · exact absurd ht (hincluded _)
      · rfl
    · rfl
  have hids := h.ids
  rwa [hpooled, List.append_nil] at hids

omit [DecidableEq C] [JsArith K] in
/-- A robot that is shown can be pulled for: its id is registered, and so `pull_next` for it does
not fail with `InvalidRobotId`. -/
def CanPull (s : Swarm.Storage Runtime) (r : Robot K) : Prop :=
  ∃ id, u32OfInt r.id = some id ∧ id ∈ s.registeredRobots ∧
    ∀ origin, Exec.reply Swarm.dispatch s ⟨origin, .pullNext id⟩ ≠
      .error (.pallet .invalidRobotId)

omit [JsArith K] in
theorem Registering.canPull (h : Registering c w)
    (hincluded : ∀ id, (c, .pool (.register id)) ∉ w.tasks) {n : ℕ} {rs : List (Robot K)}
    (hn : n ≤ (w.pages c).robots.latest.appends) (hids : rs.map Robot.id = List.range n)
    {r : Robot K} (hr : r ∈ rs) : CanPull w.chain r := by
  have hlt : r.id < n := by
    have hmem : r.id ∈ rs.map Robot.id := List.mem_map_of_mem hr
    rwa [hids, List.mem_range] at hmem
  -- the id is among those that were registered
  have hmem : r.id ∈ (w.registeredIds c).map UInt32.toNat := by
    rw [(h.registeredIds_perm hincluded).mem_iff, List.mem_range]
    omega
  obtain ⟨id, hid, heq⟩ := List.mem_map.mp hmem
  have hregistered : id ∈ w.chain.registeredRobots := h.registered id hid
  refine ⟨id, by rw [← heq]; exact u32OfInt_toNat id, hregistered, fun origin hreply => ?_⟩
  have href := Swarm.reply_eq_error_iff.mp hreply
  cases href with
  | invalidRobotId _ _ hnot => exact hnot hregistered

/-- **Every robot that is shown is registered.** For every page among any number of them, on a
chain in any state, and every run in which each registration of the page that is accepted carries
the number of robots the page has or is about to show, and the ticks of the page keep its robots:
once the accepted registrations of the page are included, every robot in its list, as it is or as
it was last rendered, can be pulled for, and the registrations that succeeded were of pairwise
different ids. -/
theorem displayed_registered (c : C) {w₀ : World C K} {ls : List (WorldAction C K)}
    (h₀ : (worldSystem C K).init w₀)
    (h : ((worldSystem C K).restrict (RegistersNext c)).Run w₀ ls w)
    (hincluded : ∀ id, (c, .pool (.register id)) ∉ w.tasks) :
    (∃ rs, (w.pages c).robots.latest.value = some (.list rs) ∧ ∀ r ∈ rs, CanPull w.chain r) ∧
    (∃ rs, (w.pages c).robots.rendered.value = some (.list rs) ∧ ∀ r ∈ rs, CanPull w.chain r) ∧
    (w.registeredIds c).Nodup := by
  have hreg₀ : Registering c w₀ := by
    have hopened : w₀ = World.opened w₀.signer w₀.chain := h₀
    rw [hopened]
    exact .initial _ _
  have hreg : Registering c w :=
    h.invariant hreg₀ fun _ _ _ hw hstep => Registering.act hw hstep.1 hstep.2
  obtain ⟨rs, hrs, hids⟩ := hreg.kept.latest
  obtain ⟨rs', hrs', hids'⟩ := hreg.kept.rendered
  refine ⟨⟨rs, hrs, fun r hr => hreg.canPull hincluded (Nat.le_refl _) hids hr⟩,
    ⟨rs', hrs', fun r hr => hreg.canPull hincluded hreg.kept.appends_le hids' hr⟩, ?_⟩
  -- the ids are a permutation of an initial segment of the numbers
  have hnodup : ((w.registeredIds c).map UInt32.toNat).Nodup :=
    (hreg.registeredIds_perm hincluded).nodup_iff.mpr List.nodup_range
  exact hnodup.of_map

end Invariant

/-- One robot is registered and shown. -/
theorem displayed_registered_one : ∃ w : World Unit ℝ, w.registeredIds () = [0] ∧
    (∃ rs, (w.pages ()).robots.latest.value = some (.list rs) ∧ ∀ r ∈ rs, CanPull w.chain r) ∧
    (∃ rs, (w.pages ()).robots.rendered.value = some (.list rs) ∧ ∀ r ∈ rs, CanPull w.chain r) ∧
    (w.registeredIds ()).Nodup := by
  have hclick : (worldSystem Unit ℝ).Run (World.opened 0 (Swarm.Storage.empty Runtime))
      [.page () .connect, .page () .commit, .page () .effects, .clickRegister ()] _ :=
    System.Run.of_runAct rfl
  have h₀ := hclick.to_restrict (G := RegistersNext ()) (by simp [RegistersNext, KeepsRobots])
  -- the nonce arrives, the transaction is accepted, and the robot is appended
  have h₁ := h₀.extend (.task 0 true) (by rintro - id ⟨⟩) rfl [] rfl nofun
  have h₂ := h₁.extend (.task 0 true) (by rintro - id ⟨⟩; exact ⟨[], rfl, rfl⟩) rfl [] rfl nofun
  have h₃ := h₂.extend (.task 1 true) (by rintro - id ⟨⟩) rfl
    [.includeTx 0, .page () .commit, .page () .effects] rfl (by simp [RegistersNext, KeepsRobots])
  have hopened : (worldSystem Unit ℝ).init (World.opened 0 (Swarm.Storage.empty Runtime)) := rfl
  exact ⟨_, rfl, displayed_registered () hopened h₃ nofun⟩

/-- The second click is made before the first robot is appended: both send the id `0`, and the
page shows the robots `0` and `1`. -/
theorem displayed_not_registered :
    ¬ ∀ (w₀ w : World Unit ℝ) ls rs, (worldSystem Unit ℝ).init w₀ →
      (worldSystem Unit ℝ).Run w₀ ls w → (∀ id, ((), .pool (.register id)) ∉ w.tasks) →
        (w.pages ()).robots.latest.value = some (.list rs) → ∀ r ∈ rs, CanPull w.chain r := by
  intro h
  -- the second click comes between the acceptance of the first registration and its `setRobots`
  have hpull := h (World.opened 0 (Swarm.Storage.empty Runtime)) _
    [.page () .connect, .page () .commit, .page () .effects, .clickRegister (), .task 0 true,
      .task 0 true, .clickRegister (), .task 2 true, .task 2 true, .task 1 true, .task 2 true,
      .includeTx 0, .includeTx 0] [newRobot 0, newRobot 1] rfl (System.Run.of_runAct rfl) nofun rfl
    (newRobot 1) (by simp)
  obtain ⟨id, hid, hregistered, -⟩ := hpull
  have hone : u32OfInt (1 : ℕ) = some 1 := rfl
  obtain rfl : (1 : UInt32) = id := Option.some.inj (hone.symm.trans hid)
  exact absurd hregistered (by decide)

end SwarmBase
