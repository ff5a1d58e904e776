import SwarmBase.Pallet.History

/-!
# When the order of two calls matters

Two signed calls commute at a storage if running them in either order ends in the same registry
and the same queue and gives each of the two the same own result: success, with the command it
pulled if it is a `pull_next`, or the error it failed with (`Commutes`).

`commutes_iff` gives the exact condition for every pair of calls at every storage. The boundary
cases are the queue being empty, one short of full, or full, and a robot registered by one of the
two calls and served by the other.
-/

namespace SwarmBase.Swarm

open Framework

variable {T : Config}

/-- The own result of a call: its error, or the commands it pulled. -/
def ownResult (s : Storage T) (x : Extrinsic T) :
    Except (DispatchError Error) (List (Command T)) :=
  match dispatch x s with
  | .ok _ s' => .ok (pulledCommands (s'.events.drop s.events.length))
  | .error e _ => .error e

/-- A call signed by `who`. -/
abbrev signed (who : T.AccountId) (call : Call T) : Extrinsic T := ⟨.signed who, call⟩

/-- Two signed calls commute: same registry, same queue, same own results in both orders. -/
def Commutes (s : Storage T) (x y : Extrinsic T) : Prop :=
  Exec.CommutesAt dispatch (fun s => (s.registeredRobots, s.globalCommandQueue)) ownResult s x y

theorem Commutes.symm {s : Storage T} {x y : Extrinsic T} (h : Commutes s x y) : Commutes s y x :=
  Exec.CommutesAt.symm h

/-- Commutation on what a storage shows: the registry, the list of queued commands and the own
results. -/
theorem commutes_iff_views {s : Storage T} {x y : Extrinsic T} :
    Commutes s x y ↔
      ((Exec.next dispatch (Exec.next dispatch s x) y).registeredRobots =
        (Exec.next dispatch (Exec.next dispatch s y) x).registeredRobots) ∧
      ((Exec.next dispatch (Exec.next dispatch s x) y).globalCommandQueue.toList =
        (Exec.next dispatch (Exec.next dispatch s y) x).globalCommandQueue.toList) ∧
      ownResult s x = ownResult (Exec.next dispatch s y) x ∧
      ownResult (Exec.next dispatch s x) y = ownResult s y := by
  refine ⟨?_, ?_⟩
  · rintro ⟨hview, hfst, hsnd⟩
    obtain ⟨hreg, hqueue⟩ := Prod.mk.inj hview
    exact ⟨hreg, congrArg BoundedVec.toList hqueue, hfst, hsnd⟩
  · rintro ⟨hreg, hqueue, hfst, hsnd⟩
    exact ⟨Prod.ext hreg (BoundedVec.ext hqueue), hfst, hsnd⟩

/-! ### One call, as seen through these views -/

section Views

variable (s : Storage T) (who : T.AccountId)

/-- Read the state and the own result of an accepted call off its specification. -/
theorem Accepts.next_eq {s s' : Storage T} {who : T.AccountId} {call : Call T}
    (h : Accepts s call s') : Exec.next dispatch s (signed who call) = s' :=
  Exec.next_ok (dispatch_ok_iff.mpr ⟨who, rfl, h⟩)

theorem Accepts.ownResult_eq {s s' : Storage T} {who : T.AccountId} {call : Call T}
    (h : Accepts s call s') :
    ownResult s (signed who call) = .ok (pulledCommands (s'.events.drop s.events.length)) := by
  simp only [ownResult, (dispatch_ok_iff (x := signed who call)).mpr ⟨who, rfl, h⟩]

theorem Refuses.next_eq {s : Storage T} {x : Extrinsic T} {e : DispatchError Error}
    (h : Refuses s x e) : Exec.next dispatch s x = s :=
  Exec.next_error (dispatch_error_iff.mpr ⟨rfl, h⟩)

theorem Refuses.ownResult_eq {s : Storage T} {x : Extrinsic T} {e : DispatchError Error}
    (h : Refuses s x e) : ownResult s x = .error e := by
  simp only [ownResult, dispatch_error_iff.mpr ⟨rfl, h⟩]

theorem next_registerRobot (r : T.RobotId) :
    Exec.next dispatch s (signed who (.registerRobot r)) =
      { s with registeredRobots := insert r s.registeredRobots } :=
  (Accepts.registerRobot s r).next_eq

theorem ownResult_registerRobot (r : T.RobotId) :
    ownResult s (signed who (.registerRobot r)) = .ok [] := by
  rw [(Accepts.registerRobot s r).ownResult_eq, List.drop_length]
  rfl

theorem next_enqueueCommand_registered (c : Command T) :
    (Exec.next dispatch s (signed who (.enqueueCommand c))).registeredRobots =
      s.registeredRobots :=
  next_registered_of_not_registerRobot s (by simp)

/-- An `enqueue_command` appends its command if there is room. -/
theorem enqueueCommand_views (c : Command T) :
    (Exec.next dispatch s (signed who (.enqueueCommand c))).globalCommandQueue.toList =
        (if s.globalCommandQueue.toList.length < T.MaxGlobalCommands
          then s.globalCommandQueue.toList ++ [c] else s.globalCommandQueue.toList) ∧
      ownResult s (signed who (.enqueueCommand c)) =
        (if s.globalCommandQueue.toList.length < T.MaxGlobalCommands
          then .ok [] else .error (.pallet .queueFull)) := by
  by_cases hroom : s.globalCommandQueue.toList.length < T.MaxGlobalCommands
  · obtain ⟨q, -, hq⟩ := BoundedVec.tryPush_of_lt (a := c) hroom
    have hacc := Accepts.enqueueCommand s c q hq
    rw [if_pos hroom, if_pos hroom, hacc.next_eq, hacc.ownResult_eq, List.drop_left]
    exact ⟨hq, rfl⟩
  · have hfull : s.globalCommandQueue.toList.length = T.MaxGlobalCommands :=
      Nat.le_antisymm s.globalCommandQueue.length_le (Nat.le_of_not_lt hroom)
    have href := Refuses.queueFull who c hfull
    rw [if_neg hroom, if_neg hroom, href.next_eq, href.ownResult_eq]
    exact ⟨rfl, rfl⟩

/-- What a `pull_next` for a registered robot returns, from the queue. -/
def front : List (Command T) → Except (DispatchError Error) (List (Command T))
  | [] => .error (.pallet .queueEmpty)
  | c :: _ => .ok [c]

theorem front_ne_invalidRobotId (q : List (Command T)) :
    front q ≠ .error (.pallet .invalidRobotId) := by
  cases q <;> simp [front]

theorem next_pullNext_registered (r : T.RobotId) :
    (Exec.next dispatch s (signed who (.pullNext r))).registeredRobots = s.registeredRobots :=
  next_registered_of_not_registerRobot s (by simp)

/-- A `pull_next` takes the front of the queue if its robot is registered. -/
theorem pullNext_views (r : T.RobotId) :
    (Exec.next dispatch s (signed who (.pullNext r))).globalCommandQueue.toList =
        (if r ∈ s.registeredRobots
          then s.globalCommandQueue.toList.tail else s.globalCommandQueue.toList) ∧
      ownResult s (signed who (.pullNext r)) =
        (if r ∈ s.registeredRobots
          then front s.globalCommandQueue.toList else .error (.pallet .invalidRobotId)) := by
  by_cases hr : r ∈ s.registeredRobots
  · rw [if_pos hr, if_pos hr]
    cases hq : s.globalCommandQueue.toList with
    | nil =>
      have href := Refuses.queueEmpty who r hr hq
      rw [href.next_eq, href.ownResult_eq]
      exact ⟨hq, rfl⟩
    | cons c rest =>
      have hrest : s.globalCommandQueue.toList = c :: (s.globalCommandQueue.remove 0).toList := by
        rw [BoundedVec.toList_remove, hq]
        rfl
      -- the event of the pull is what was appended to the log
      have hacc := Accepts.pullNext s r c _ hr hrest
      rw [hacc.next_eq, hacc.ownResult_eq, List.drop_left]
      refine ⟨?_, rfl⟩
      rw [hq] at hrest
      exact (List.cons.inj hrest).2.symm
  · have href := Refuses.invalidRobotId who r hr
    rw [if_neg hr, if_neg hr, href.next_eq, href.ownResult_eq]
    exact ⟨rfl, rfl⟩

end Views

/-! ### The six pairs

In each proof `commutes_iff_views` and the view lemmas turn commutation into equations between
`if`s over the registry and the queue of `s`; the case splits are on those conditions. -/

section Pairs

variable (s : Storage T) (a b : T.AccountId)

theorem commutes_registerRobot_registerRobot (r r' : T.RobotId) :
    Commutes s (signed a (.registerRobot r)) (signed b (.registerRobot r')) := by
  rw [commutes_iff_views]
  simp only [next_registerRobot, ownResult_registerRobot, Finset.insert_comm, and_self]

theorem commutes_registerRobot_enqueueCommand (r : T.RobotId) (c : Command T) :
    Commutes s (signed a (.registerRobot r)) (signed b (.enqueueCommand c)) := by
  rw [commutes_iff_views]
  simp only [next_registerRobot, ownResult_registerRobot, next_enqueueCommand_registered,
    (enqueueCommand_views _ _ _).1, (enqueueCommand_views _ _ _).2, and_self]

theorem commutes_registerRobot_pullNext (r r' : T.RobotId) :
    Commutes s (signed a (.registerRobot r)) (signed b (.pullNext r')) ↔
      r ≠ r' ∨ r ∈ s.registeredRobots := by
  rw [commutes_iff_views]
  simp only [next_registerRobot, ownResult_registerRobot, next_pullNext_registered,
    (pullNext_views _ _ _).1, (pullNext_views _ _ _).2, Finset.mem_insert, true_and]
  by_cases hr' : r' ∈ s.registeredRobots
  -- `r'` is served in both orders
  · have hcond : r ≠ r' ∨ r ∈ s.registeredRobots := by
      by_cases heq : r = r'
      · exact Or.inr (heq ▸ hr')
      · exact Or.inl heq
    simp [hr', hcond]
  · -- `r'` is served only after its own registration, which the other order lacks
    by_cases heq : r' = r
    · subst heq
      simp [hr', front_ne_invalidRobotId]
    · simp [hr', heq, Ne.symm heq]

theorem commutes_enqueueCommand_enqueueCommand (c c' : Command T) :
    Commutes s (signed a (.enqueueCommand c)) (signed b (.enqueueCommand c')) ↔
      s.globalCommandQueue.toList.length = T.MaxGlobalCommands ∨
        s.globalCommandQueue.toList.length + 2 ≤ T.MaxGlobalCommands ∧ c = c' := by
  have hle := s.globalCommandQueue.length_le
  rw [commutes_iff_views]
  simp only [next_enqueueCommand_registered, (enqueueCommand_views _ _ _).1,
    (enqueueCommand_views _ _ _).2, true_and]
  by_cases hroom : s.globalCommandQueue.toList.length < T.MaxGlobalCommands
  · by_cases htwo : s.globalCommandQueue.toList.length + 2 ≤ T.MaxGlobalCommands
    · have hlt : s.globalCommandQueue.toList.length + 1 < T.MaxGlobalCommands := htwo
      have hne : s.globalCommandQueue.toList.length ≠ T.MaxGlobalCommands := by omega
      simp [hroom, hlt, hne, htwo]
      exact fun h => h.symm
    · -- room for one: whichever call comes second fails
      have hlt : ¬ s.globalCommandQueue.toList.length + 1 < T.MaxGlobalCommands := by omega
      have hne : s.globalCommandQueue.toList.length ≠ T.MaxGlobalCommands := by omega
      simp [hroom, hlt, hne, htwo]
  · -- both calls fail in both orders
    have heq : s.globalCommandQueue.toList.length = T.MaxGlobalCommands := by omega
    simp [heq]

theorem commutes_enqueueCommand_pullNext (c : Command T) (r : T.RobotId) :
    Commutes s (signed a (.enqueueCommand c)) (signed b (.pullNext r)) ↔
      r ∉ s.registeredRobots ∨
        (0 < s.globalCommandQueue.toList.length ∧
          s.globalCommandQueue.toList.length < T.MaxGlobalCommands) ∨
        T.MaxGlobalCommands = 0 := by
  have hle := s.globalCommandQueue.length_le
  rw [commutes_iff_views]
  simp only [next_enqueueCommand_registered, next_pullNext_registered,
    (enqueueCommand_views _ _ _).1, (enqueueCommand_views _ _ _).2, (pullNext_views _ _ _).1,
    (pullNext_views _ _ _).2, true_and]
  by_cases hr : r ∈ s.registeredRobots
  · cases hq : s.globalCommandQueue.toList with
    | nil =>
      -- with room, the pull finds the command only if it comes second
      rcases Nat.eq_zero_or_pos T.MaxGlobalCommands with hzero | hpos
      · simp [hr, hzero]
      · have hne : T.MaxGlobalCommands ≠ 0 := by omega
        simp [hr, hpos, hne, front]
    | cons d rest =>
      rw [hq, List.length_cons] at hle
      have hne : T.MaxGlobalCommands ≠ 0 := by omega
      have hrest : rest.length < T.MaxGlobalCommands := by omega
      by_cases hroom : rest.length + 1 < T.MaxGlobalCommands
      · simp [hr, hroom, hrest, front]
      · -- on a full queue, the enqueue succeeds only if it comes second
        simp [hr, hroom, hrest, hne]
  · simp [hr]

theorem commutes_pullNext_pullNext (r r' : T.RobotId) :
    Commutes s (signed a (.pullNext r)) (signed b (.pullNext r')) ↔
      r ∉ s.registeredRobots ∨ r' ∉ s.registeredRobots ∨
        s.globalCommandQueue.toList.length = 0 ∨
        (2 ≤ s.globalCommandQueue.toList.length ∧
          s.globalCommandQueue.toList[0]? = s.globalCommandQueue.toList[1]?) := by
  rw [commutes_iff_views]
  simp only [next_pullNext_registered, (pullNext_views _ _ _).1, (pullNext_views _ _ _).2, true_and]
  by_cases hr : r ∈ s.registeredRobots
  · by_cases hr' : r' ∈ s.registeredRobots
    · -- with one command the second pull fails, with two or more the two pulls swap commands
      match hq : s.globalCommandQueue.toList with
      | [] => simp [hr, hr', front]
      | [c] => simp [hr, hr', front]
      | c :: d :: rest =>
        have hcomm : d = c ↔ c = d := eq_comm
        simp [hr, hr', front, hcomm]
    · simp [hr, hr']
  · simp [hr]

end Pairs

/-- **When the order of two signed calls matters**, for every bound, every storage, every pair of
calls and all signers. Commutation is symmetric, so the six pairs below are all pairs. -/
theorem commutes_iff (T : Config) (s : Storage T) (a b : T.AccountId) :
    (∀ x y : Extrinsic T, Commutes s x y ↔ Commutes s y x) ∧
    (∀ r r', Commutes s (signed a (.registerRobot r)) (signed b (.registerRobot r'))) ∧
    (∀ r c, Commutes s (signed a (.registerRobot r)) (signed b (.enqueueCommand c))) ∧
    (∀ r r', Commutes s (signed a (.registerRobot r)) (signed b (.pullNext r')) ↔
      r ≠ r' ∨ r ∈ s.registeredRobots) ∧
    (∀ c c', Commutes s (signed a (.enqueueCommand c)) (signed b (.enqueueCommand c')) ↔
      s.globalCommandQueue.toList.length = T.MaxGlobalCommands ∨
        s.globalCommandQueue.toList.length + 2 ≤ T.MaxGlobalCommands ∧ c = c') ∧
    (∀ c r, Commutes s (signed a (.enqueueCommand c)) (signed b (.pullNext r)) ↔
      r ∉ s.registeredRobots ∨
        (0 < s.globalCommandQueue.toList.length ∧
          s.globalCommandQueue.toList.length < T.MaxGlobalCommands) ∨
        T.MaxGlobalCommands = 0) ∧
    (∀ r r', Commutes s (signed a (.pullNext r)) (signed b (.pullNext r')) ↔
      r ∉ s.registeredRobots ∨ r' ∉ s.registeredRobots ∨
        s.globalCommandQueue.toList.length = 0 ∨
        (2 ≤ s.globalCommandQueue.toList.length ∧
          s.globalCommandQueue.toList[0]? = s.globalCommandQueue.toList[1]?)) :=
  ⟨fun _ _ => ⟨Commutes.symm, Commutes.symm⟩, commutes_registerRobot_registerRobot s a b,
    commutes_registerRobot_enqueueCommand s a b, commutes_registerRobot_pullNext s a b,
    commutes_enqueueCommand_enqueueCommand s a b, commutes_enqueueCommand_pullNext s a b,
    commutes_pullNext_pullNext s a b⟩

end SwarmBase.Swarm
