import SwarmBase.World.Flow

/-!
# Clicks in the world

A flow was looked at on a page alone, with transactions that have any outcome. In the world there
are other pages, whose flows are outstanding among its own, and the chain decides the outcomes.
Still, what a click on a page with nothing outstanding leads to is a flow of that page
(`World.run_flow`), whatever the others do, as long as it is not clicked again: a step of the world
is a step of the flow, or nothing to it (`World.IsFlow.act`).
-/

namespace SwarmBase

open Framework

variable {C K : Type}

namespace World

variable [DecidableEq C]

/-- A task, if it is one of the page `c`. -/
def taskOf (c : C) (ct : C × Task K) : Option (Task K) := if ct.1 = c then some ct.2 else none

/-- What is outstanding of the page `c`. -/
def tasksOf (w : World C K) (c : C) : List (Task K) := w.tasks.filterMap (taskOf c)

/-- The page `c` of the world, and what is outstanding of it. -/
structure IsFlow (c : C) (w : World C K) (s : Flow K) : Prop where
  page : s.page = w.pages c
  tasks : s.tasks = w.tasksOf c

variable {c d : C} {w w' : World C K} {kept : List (C × Task K)} {ts : List (Task K)}
  {p : Page K} {clicks : ℕ} {s : Flow K}

theorem taskOf_self (t : Task K) : taskOf c (c, t) = some t := if_pos rfl

theorem taskOf_of_ne (hd : d ≠ c) (t : Task K) : taskOf c (d, t) = none := if_neg hd

/-- What is outstanding of a page after a stretch of one of its flows. -/
theorem tasksOf_after :
    (w.after c p kept ts clicks).tasksOf c = kept.filterMap (taskOf c) ++ ts := by
  have hown : taskOf c ∘ (fun t => (c, t)) = (some : Task K → Option (Task K)) :=
    funext taskOf_self
  unfold tasksOf
  rw [after_tasks, List.filterMap_append, List.filterMap_map, hown, List.filterMap_some]

/-- What another page does is nothing to the flow. -/
theorem IsFlow.after_of_ne (h : IsFlow c w s) (hd : d ≠ c)
    (hkept : kept.filterMap (taskOf c) = w.tasksOf c) :
    IsFlow c (w.after d p kept ts clicks) s where
  page := by rw [h.page, after_pages_of_ne hd.symm]
  tasks := by
    have hother : taskOf c ∘ (fun t => (d, t)) = fun _ : Task K => none := funext (taskOf_of_ne hd)
    unfold tasksOf
    rw [after_tasks, List.filterMap_append, List.filterMap_map, hother, List.filterMap_none,
      List.append_nil, hkept, h.tasks]

variable [JsArith K]

/-- The condition on the steps of the world: the page `c` is not clicked, and its ticks keep the
robots. -/
def NotClicked (c : C) (w : World C K) : WorldAction C K → Prop
  | .clickRegister d => d ≠ c
  | .clickCanvas d _ _ => d ≠ c
  | .page d a => d = c → KeepsRobots (w.pages c) a
  | _ => True

theorem IsFlow.page_step {a : PageAction K} (h : IsFlow c w s) (hown : a.isOwn = true)
    (hG : KeepsRobots (w.pages c) a) (hp : (w.pages c).act a = some p) :
    ∃ ks s', ((flowSystem K).restrict Flow.TicksKeep).Run s ks s' ∧
      IsFlow c (w.after c p w.tasks [] clicks) s' := by
  have hflow : a.isOfFlow = false := by
    cases a <;> first | rfl | cases hown
  have hact : s.act (.page a) = some { s with page := p } := by
    unfold Flow.act
    dsimp only
    rw [h.page, hp, hflow]
    rfl
  rw [← h.page] at hG
  refine ⟨[.page a], _, .single ⟨hG, hact⟩, after_pages_self.symm, ?_⟩
  rw [tasksOf_after, List.append_nil]
  exact h.tasks

theorem IsFlow.task_step {i : ℕ} {ok : Bool} {t : Task K} {e : Effect K} (h : IsFlow c w s)
    (ht : w.tasks[i]? = some (c, t)) (he : t.react ok = some e)
    (hp : System.runAct Page.act (w.pages c) e.1 = some p) :
    ∃ ks s', ((flowSystem K).restrict Flow.TicksKeep).Run s ks s' ∧
      IsFlow c (w.after c p (w.tasks.eraseIdx i) e.2 clicks) s' := by
  obtain ⟨j, hj, herase⟩ := exists_eraseIdx_filterMap ht (taskOf_self t)
  rw [← tasksOf, ← h.tasks] at hj herase
  have hact : s.act (.task j ok) =
      some ⟨p, s.tasks.eraseIdx j ++ e.2, s.failure.or (t.failure ok)⟩ := by
    unfold Flow.act
    dsimp only
    rw [hj, Option.bind_some, he, Option.bind_some, h.page, hp]
    rfl
  refine ⟨[.task j ok], _, .single ⟨trivial, hact⟩, after_pages_self.symm, ?_⟩
  rw [tasksOf_after, herase]

theorem IsFlow.include_step {i : ℕ} {tx : Tx K} (h : IsFlow c w s)
    (ht : w.tasks[i]? = some (c, .pool tx)) :
    ∃ ks s', ((flowSystem K).restrict Flow.TicksKeep).Run s ks s' ∧
      IsFlow c (w.includeTx i c tx) s' := by
  obtain ⟨j, hj, herase⟩ := exists_eraseIdx_filterMap ht (taskOf_self (.pool tx))
  rw [← tasksOf, ← h.tasks] at hj herase
  -- the outcome is that of the chain
  let error := Swarm.dispatchError w.chain ⟨.signed w.signer, tx.call⟩
  have hact : s.act (.includeTx j error) =
      some { s with tasks := s.tasks.eraseIdx j ++ [.inBlock tx error] } := by
    unfold Flow.act
    dsimp only
    rw [hj]
  refine ⟨[.includeTx j error], _, .single ⟨trivial, hact⟩, h.page, ?_⟩
  unfold tasksOf includeTx
  dsimp only
  rw [List.filterMap_append, herase, filterMap_singleton, taskOf_self]
  rfl

omit [JsArith K] in
/-- What is included of another page is nothing to the flow. -/
theorem IsFlow.include_of_ne {i : ℕ} {tx : Tx K} (h : IsFlow c w s) (hd : d ≠ c)
    (ht : w.tasks[i]? = some (d, .pool tx)) : IsFlow c (w.includeTx i d tx) s where
  page := h.page
  tasks := by
    unfold tasksOf includeTx
    dsimp only
    rw [List.filterMap_append, filterMap_eraseIdx_of_none ht (taskOf_of_ne hd _),
      filterMap_singleton, taskOf_of_ne hd, Option.toList_none, List.append_nil]
    exact h.tasks

/-- **One step.** A step of the world that does not click the page is one of its flow, or nothing
to it. -/
theorem IsFlow.act {l : WorldAction C K} (h : IsFlow c w s) (hG : NotClicked c w l)
    (ha : w.act l = some w') : ∃ ks s', ((flowSystem K).restrict Flow.TicksKeep).Run s ks s' ∧
      IsFlow c w' s' := by
  obtain ⟨d, e, kept, clicks, p, hst, hp, rfl⟩ | ⟨i, d, tx, rfl, ht, rfl⟩ := act_cases ha
  · cases hst with
    | page _ a hown =>
      by_cases hd : d = c
      · subst hd
        obtain ⟨q, hq, hrest⟩ := Option.bind_eq_some_iff.mp hp
        obtain rfl := Option.some.inj hrest
        exact h.page_step hown (hG rfl) hq
      · exact ⟨[], s, .nil s, h.after_of_ne hd rfl⟩
    | clickRegister | clickCanvas => exact ⟨[], s, .nil s, h.after_of_ne hG rfl⟩
    | task i ok _ t _ ht he =>
      by_cases hd : d = c
      · subst hd
        exact h.task_step ht he hp
      · have hkept := filterMap_eraseIdx_of_none ht (taskOf_of_ne hd t)
        exact ⟨[], s, .nil s, h.after_of_ne hd hkept⟩
  · by_cases hd : d = c
    · subst hd
      exact h.include_step ht
    · exact ⟨[], s, .nil s, h.include_of_ne hd ht⟩

theorem IsFlow.run {ls : List (WorldAction C K)} (h : IsFlow c w s)
    (hrun : ((worldSystem C K).restrict (NotClicked c)).Run w ls w') :
    ∃ ks s', ((flowSystem K).restrict Flow.TicksKeep).Run s ks s' ∧ IsFlow c w' s' :=
  hrun.simulate h fun _ _ _ _ h ⟨hG, ha⟩ => h.act hG ha

/-- A click on a page with nothing outstanding starts a flow. -/
theorem exists_start {l : WorldAction C K} (hquiet : w.tasksOf c = [])
    (hl : l = .clickRegister c ∨ ∃ x y, l = .clickCanvas c x y) (ha : w.act l = some w') :
    ∃ k s, Flow.start (w.pages c) k = some s ∧ IsFlow c w' s := by
  -- what is outstanding after the click is what the flow leaves
  have hstart : ∀ (k : Click) (e : Effect K) (failure : Option FailurePoint) (p : Page K) (n : ℕ),
      Flow.onClick (w.pages c) k = some (e, failure) →
        System.runAct Page.act (w.pages c) e.1 = some p →
          ∃ k s, Flow.start (w.pages c) k = some s ∧ IsFlow c (w.after c p w.tasks e.2 n) s := by
    intro k e failure p n hclick hp
    refine ⟨k, ⟨p, e.2, failure⟩, ?_, after_pages_self.symm, ?_⟩
    · unfold Flow.start
      rw [hclick, Option.bind_some]
      dsimp only
      rw [hp]
      rfl
    · rw [tasksOf_after, ← tasksOf, hquiet, List.nil_append]
  unfold World.act at ha
  obtain rfl | ⟨x, y, rfl⟩ := hl
  · dsimp only at ha
    split_ifs at ha with hready
    obtain ⟨p, hp, rfl⟩ := Option.map_eq_some_iff.mp ha
    exact hstart .register _ _ p w.clicks (if_pos hready) hp
  · dsimp only at ha
    split_ifs at ha with hmounted
    obtain ⟨p, hp, rfl⟩ := Option.map_eq_some_iff.mp ha
    exact hstart (.canvas w.clicks x y) _ _ p (w.clicks + 1) (if_pos hmounted) hp

/-- **Runs.** Whatever the other pages and the chain do: what a click on a page with nothing
outstanding leads to, as long as the page is not clicked again, is a flow. -/
theorem run_flow {w₁ : World C K} {l : WorldAction C K} {ls : List (WorldAction C K)}
    (hquiet : w.tasksOf c = []) (hl : l = .clickRegister c ∨ ∃ x y, l = .clickCanvas c x y)
    (ha : w.act l = some w₁)
    (hrun : ((worldSystem C K).restrict (NotClicked c)).Run w₁ ls w') :
    ∃ k s ks s', Flow.start (w.pages c) k = some s ∧
      ((flowSystem K).restrict Flow.TicksKeep).Run s ks s' ∧ IsFlow c w' s' := by
  obtain ⟨k, s, hstart, hflow⟩ := exists_start hquiet hl ha
  obtain ⟨ks, s', hrun', hflow'⟩ := hflow.run hrun
  exact ⟨k, s, ks, s', hstart, hrun', hflow'⟩

end World

end SwarmBase
