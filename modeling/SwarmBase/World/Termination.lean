import SwarmBase.World.Model

/-!
# Flows end

What a click starts can go on in many orders, and a flow sends a second transaction when its first
is final. `Task.work` bounds the number of steps an outstanding task can still lead to. Every step
that takes up a task uses up a unit of it (`Task.Reacts.work_lt`), and only clicks add to it.

* `flows_end` — a click leads to at most eight further steps, and as long as anything is outstanding
  one of them can be made, so a world that is not clicked any more comes to rest.
-/

namespace SwarmBase

open Framework

variable {C K : Type}

/-- What the finalization of a transaction leads to: an enqueue is followed by a pull. -/
def Tx.work : Tx K → ℕ
  | .enqueue _ _ _ => 4
  | _ => 0

/-- The steps a task can still lead to. -/
def Task.work : Task K → ℕ
  | .nonce _ => 6
  | .submit (.register _) => 5
  | .submit tx => 4 + tx.work
  | .pool tx => 3 + tx.work
  | .inBlock tx _ => 2 + tx.work
  | .finalized tx _ => 1 + tx.work
  | .setRobots => 1

/-- A step that takes up something outstanding. -/
def WorldAction.isFlowStep : WorldAction C K → Bool
  | .task _ _ | .includeTx _ => true
  | _ => false

def WorldAction.isClick : WorldAction C K → Bool
  | .clickRegister _ | .clickCanvas _ _ _ => true
  | _ => false

/-- What a stretch of a flow leaves to be done. -/
def Effect.work (e : Effect K) : ℕ := (e.2.map Task.work).sum

/-- What is still to be done. -/
def World.work (w : World C K) : ℕ := (w.tasks.map fun ct => ct.2.work).sum

/-! ### Bounds -/

theorem Closure.work_registerRobot (k : Closure K) : Effect.work k.registerRobot ≤ 8 := by
  unfold Effect.work
  obtain h | ⟨id, h⟩ := k.registerRobot_snd
  · rw [h]
    exact Nat.zero_le 8
  · rw [h]
    show 6 + 0 ≤ 8
    omega

theorem Closure.work_handleCanvasClick (k : Closure K) (click : ℕ) (x y : ℤ) :
    Effect.work (k.handleCanvasClick click x y) ≤ 8 := by
  unfold Effect.work Closure.handleCanvasClick
  generalize encodeGoToLocation x y = o
  cases k.ready <;> cases o <;> simp [Task.work, Tx.work]

theorem Closure.work_commandPull (k : Closure K) (click : ℕ) :
    Effect.work (k.commandPull click) ≤ 4 := by
  unfold Effect.work Closure.commandPull
  split_ifs
  · exact Nat.zero_le 4
  · split
    · exact Nat.zero_le 4
    · rename_i r rest _
      generalize u32OfInt (r.id : ℤ) = o
      cases o <;> simp [Task.work, Tx.work]
    · exact Nat.zero_le 4

theorem Tx.work_onFinalized (tx : Tx K) : Effect.work tx.onFinalized ≤ tx.work := by
  cases tx with
  | enqueue click command k => exact k.work_commandPull click
  | register | pull => exact Nat.le_refl 0

/-- **A task that is taken up leaves less to do.** -/
theorem Task.Reacts.work_lt {t : Task K} {ok : Bool} {e : Effect K} (h : t.Reacts ok e) :
    e.work < t.work := by
  unfold Effect.work
  cases h with
  | nonce | noNonce | register | enqueueRefused | setRobots => simp [Task.work, Tx.work]
  | submit tx htx =>
    cases tx with
    | register id => exact absurd rfl (htx id)
    | enqueue | pull => simp [Task.work, Tx.work]
  | refused tx => cases tx <;> simp [Task.work, Tx.work]
  | inBlock tx =>
    show 1 + tx.work + 0 < 2 + tx.work
    omega
  | inBlockError tx error =>
    show 1 + tx.work + 0 < 2 + tx.work
    omega
  | finalized tx =>
    have hwork := tx.work_onFinalized
    unfold Effect.work at hwork
    show _ < 1 + tx.work
    omega
  | finalizedError tx error =>
    rw [tx.onError_snd]
    show 0 < 1 + tx.work
    omega

section Steps

variable [DecidableEq C] [JsArith K] {w w' : World C K} {l : WorldAction C K}

omit [DecidableEq C] [JsArith K] in
theorem World.Stretch.work_le {c : C} {e : Effect K} {kept : List (C × Task K)} {clicks : ℕ}
    (h : World.Stretch w l c e kept clicks) :
    (kept.map fun ct => ct.2.work).sum + e.work + (if l.isFlowStep then 1 else 0) ≤
      w.work + if l.isClick then 8 else 0 := by
  cases h with
  | page c a ha => exact Nat.le_refl _
  | clickRegister c => exact Nat.add_le_add_left (Closure.work_registerRobot _) _
  | clickCanvas c x y => exact Nat.add_le_add_left (Closure.work_handleCanvasClick _ _ x y) _
  | task i ok c t e ht he =>
    have hlt := (Task.reacts he).work_lt
    have hsum := sum_map_eraseIdx ht fun ct : C × Task K => ct.2.work
    show _ + _ + 1 ≤ (w.tasks.map fun ct => ct.2.work).sum + 0
    dsimp only at hsum
    omega

theorem World.work_act (h : w.act l = some w') :
    w'.work + (if l.isFlowStep then 1 else 0) ≤ w.work + if l.isClick then 8 else 0 := by
  obtain ⟨c, e, kept, clicks, p, hst, -, rfl⟩ | ⟨i, c, tx, rfl, hi, rfl⟩ := World.act_cases h
  · have hle := hst.work_le
    unfold World.work at hle ⊢
    rw [World.sum_tasks_after]
    exact hle
  · have hsum := World.sum_tasks_includeTx hi fun ct : C × Task K => ct.2.work
    unfold World.work
    change _ + (3 + tx.work) = _ + (2 + tx.work) at hsum
    show _ + 1 ≤ _ + 0
    omega

/-- Clicks are what there is to do, and flow steps are what is done of it. -/
theorem World.work_run {ls : List (WorldAction C K)} (h : (worldSystem C K).Run w ls w') :
    w'.work + ls.countP WorldAction.isFlowStep ≤ w.work + 8 * ls.countP WorldAction.isClick := by
  refine h.induction (P := fun ls w' =>
    w'.work + ls.countP WorldAction.isFlowStep ≤ w.work + 8 * ls.countP WorldAction.isClick)
    (Nat.le_refl _) ?_
  intro ls w' l w'' _ ih hstep
  have hle := World.work_act hstep
  rw [List.countP_append, List.countP_append, List.countP_singleton, List.countP_singleton]
  split_ifs at hle ⊢ <;> omega

/-! ### Progress -/

/-- A page can always take up what a flow asks for. -/
theorem Page.exists_runAct {as : List (PageAction K)} (h : ∀ a ∈ as, a.isFlowUpdate = true)
    (p : Page K) : ∃ q, System.runAct Page.act p as = some q := by
  induction as generalizing p with
  | nil => exact ⟨p, rfl⟩
  | cons a as ih =>
    have ha := h a List.mem_cons_self
    obtain ⟨q, hq⟩ : ∃ q, p.act a = some q := by
      cases a with
      | setRobots | setLoading | updateEvents => exact ⟨_, rfl⟩
      | _ => cases ha
    obtain ⟨q', hq'⟩ := ih (fun b hb => h b (List.mem_cons_of_mem a hb)) q
    refine ⟨q', ?_⟩
    show (p.act a).bind _ = some q'
    rw [hq]
    exact hq'

/-- **No flow gets stuck.** -/
theorem World.exists_act (h : w.tasks ≠ []) : ∃ l w', l.isFlowStep = true ∧ w.act l = some w' := by
  obtain ⟨⟨c, t⟩, rest, htasks⟩ := List.exists_cons_of_ne_nil h
  have ht : w.tasks[0]? = some (c, t) := by
    rw [htasks]
    rfl
  by_cases hpool : ∃ tx, t = .pool tx
  · obtain ⟨tx, rfl⟩ := hpool
    refine ⟨.includeTx 0, w.includeTx 0 c tx, rfl, ?_⟩
    unfold World.act
    dsimp only
    rw [ht]
  · obtain ⟨e, he⟩ : ∃ e, t.react true = some e := by
      cases t with
      | pool tx => exact absurd ⟨tx, rfl⟩ hpool
      | submit tx => cases tx <;> exact ⟨_, rfl⟩
      | inBlock tx error => cases error <;> exact ⟨_, rfl⟩
      | finalized tx error => cases error <;> exact ⟨_, rfl⟩
      | nonce | setRobots => exact ⟨_, rfl⟩
    obtain ⟨p, hp⟩ := Page.exists_runAct (Task.reacts he).ofFlow (w.pages c)
    obtain ⟨w', hw⟩ : ∃ w', w.act (.task 0 true) = some w' := by
      unfold World.act World.perform
      simp only [ht, he, hp, Option.bind_some, Option.map_some, Option.some.injEq, exists_eq']
    exact ⟨.task 0 true, w', rfl, hw⟩

/-- The flow steps that are left lead to a world with nothing outstanding. -/
theorem World.exists_run (w : World C K) : ∃ ls w', (worldSystem C K).Run w ls w' ∧
    (∀ l ∈ ls, l.isFlowStep = true) ∧ w'.tasks = [] := by
  -- each step leaves less to do
  induction hn : w.work using Nat.strong_induction_on generalizing w with
  | _ n ih =>
    by_cases htasks : w.tasks = []
    · exact ⟨[], w, .nil w, nofun, htasks⟩
    · obtain ⟨l, w₁, hl, hstep⟩ := World.exists_act htasks
      have hlt : w₁.work < n := by
        have hle := World.work_act hstep
        have hclick : l.isClick = false := by
          cases l with
          | task | includeTx => rfl
          | _ => cases hl
        rw [hl, hclick] at hle
        simp only [if_true] at hle
        rw [← hn]
        exact hle
      obtain ⟨ls, w', hrun, hls, hrest⟩ := ih w₁.work hlt w₁ rfl
      exact ⟨l :: ls, w', .cons hstep hrun, List.forall_mem_cons.mpr ⟨hl, hls⟩, hrest⟩

/-- **Flows end.** In every run of any number of pages on a chain in any state, the outcomes of
nonce queries, submissions and calls whatever they are: there are at most eight steps of flows for
each click; as long as anything is outstanding, a flow can go on; and flows alone lead from there to
a world with nothing outstanding. -/
theorem flows_end {signer : Runtime.AccountId} {chain : Swarm.Storage Runtime}
    {ls : List (WorldAction C K)} (h : (worldSystem C K).Run (World.opened signer chain) ls w) :
    ls.countP WorldAction.isFlowStep ≤ 8 * ls.countP WorldAction.isClick ∧
    (w.tasks ≠ [] → ∃ l w', l.isFlowStep = true ∧ w.act l = some w') ∧
    ∃ ks w', (worldSystem C K).Run w ks w' ∧ (∀ k ∈ ks, k.isFlowStep = true) ∧ w'.tasks = [] := by
  refine ⟨?_, World.exists_act, w.exists_run⟩
  have hle := World.work_run h
  have hopened : (World.opened signer chain : World C K).work = 0 := rfl
  omega

end Steps

/-- A page with a registration on its way. -/
theorem flows_end_one : ∃ w : World Unit ℝ, w.tasks ≠ [] ∧
    ([.page () .connect, .page () .commit, .page () .effects, .clickRegister (), .task 0 true] :
        List (WorldAction Unit ℝ)).countP WorldAction.isFlowStep ≤
      8 * ([.page () .connect, .page () .commit, .page () .effects, .clickRegister (),
        .task 0 true] : List (WorldAction Unit ℝ)).countP WorldAction.isClick ∧
    (w.tasks ≠ [] → ∃ l w', l.isFlowStep = true ∧ w.act l = some w') ∧
    ∃ ks w', (worldSystem Unit ℝ).Run w ks w' ∧ (∀ k ∈ ks, k.isFlowStep = true) ∧
      w'.tasks = [] := by
  have hrun : (worldSystem Unit ℝ).Run (World.opened 0 (Swarm.Storage.empty Runtime))
      [.page () .connect, .page () .commit, .page () .effects, .clickRegister (),
        .task 0 true] _ := .of_runAct rfl
  exact ⟨_, List.cons_ne_nil _ _, flows_end hrun⟩

end SwarmBase
