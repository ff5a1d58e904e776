import SwarmBase.Pallet.Frame
import Mathlib.Data.Finset.Insert

/-!
# The swarm robot pallet

`pallets/swarm-robot-pallet`: a registry of robots and one global queue of commands.

The pallet is generic in its configuration, and so is the model: `Config` carries the associated
types of the pallet's `Config` trait that its calls use, with the bound `MaxGlobalCommands`.
`Storage` is the two storage items together with the event log of the system pallet, which
`deposit_event` appends to. A `StorageMap` into `()` is determined by its keys, so
`RegisteredRobots` is a finite set.

The three calls follow the source statement by statement. What they can do is then said once, by
the relations `Accepts` and `Refuses`, and every later proof inverts a call with
`dispatch_ok_iff` and `dispatch_error_iff`.
-/

namespace SwarmBase

/-- The configuration of the pallet. `RobotId` is a storage key, hence comparable. -/
structure Config where
  AccountId : Type
  Location : Type
  RobotId : Type
  TaskDefinition : Type
  MaxGlobalCommands : ℕ
  [decEqRobotId : DecidableEq RobotId]
  [decEqLocation : DecidableEq Location]
  [decEqTaskDefinition : DecidableEq TaskDefinition]

attribute [instance] Config.decEqRobotId Config.decEqLocation Config.decEqTaskDefinition

inductive Command (T : Config) where
  | goToLocation (location : T.Location)
  | performTask (task : T.TaskDefinition)
  | halt
  | waitForCommand
  deriving DecidableEq

namespace Swarm

inductive Error where
  | invalidRobotId
  | queueFull
  | queueEmpty
  deriving DecidableEq

inductive Event (T : Config) where
  | commandEnqueued (command : Command T)
  | commandPulled (robotId : T.RobotId) (command : Command T) (coordinate : Option T.Location)
  deriving DecidableEq

/-- The storage of the pallet, with the log its events are deposited in. -/
structure Storage (T : Config) where
  registeredRobots : Finset T.RobotId
  globalCommandQueue : BoundedVec (Command T) T.MaxGlobalCommands
  events : List (Event T)

/-- Empty storage: no robot, no command, no event. -/
def Storage.empty (T : Config) : Storage T := ⟨∅, BoundedVec.empty, []⟩

/-- A dispatchable of the pallet. -/
abbrev DispatchM (T : Config) := EStateM (DispatchError Error) (Storage T)

variable {T : Config}

def depositEvent (event : Event T) : DispatchM T Unit :=
  modify fun s => { s with events := s.events ++ [event] }

def putQueue (queue : BoundedVec (Command T) T.MaxGlobalCommands) : DispatchM T Unit :=
  modify fun s => { s with globalCommandQueue := queue }

/-- The coordinate a `CommandPulled` event reports: the location of a `GoToLocation`. -/
def coordinate : Command T → Option T.Location
  | .goToLocation c => some c
  | _ => none

def registerRobot (origin : Origin T.AccountId) (robotId : T.RobotId) : DispatchM T Unit := do
  let _who ← Frame.ensureSigned origin
  modify fun s => { s with registeredRobots := insert robotId s.registeredRobots }

def enqueueCommand (origin : Origin T.AccountId) (command : Command T) : DispatchM T Unit := do
  let _who ← Frame.ensureSigned origin
  let queue := (← get).globalCommandQueue
  let queue ← Frame.okOr (queue.tryPush command) .queueFull
  putQueue queue
  depositEvent (.commandEnqueued command)

def pullNext (origin : Origin T.AccountId) (robotId : T.RobotId) : DispatchM T Unit := do
  let _who ← Frame.ensureSigned origin
  Frame.ensure (robotId ∈ (← get).registeredRobots) .invalidRobotId
  let queue := (← get).globalCommandQueue
  let cmd ← Frame.okOr (queue.get? 0) .queueEmpty
  putQueue (queue.remove 0)
  depositEvent (.commandPulled robotId cmd (coordinate cmd))

/-- The calls of the pallet. -/
inductive Call (T : Config) where
  | registerRobot (robotId : T.RobotId)
  | enqueueCommand (command : Command T)
  | pullNext (robotId : T.RobotId)
  deriving DecidableEq

/-- A call with the origin it is dispatched from. -/
structure Extrinsic (T : Config) where
  origin : Origin T.AccountId
  call : Call T

def dispatch (x : Extrinsic T) : DispatchM T Unit :=
  match x.call with
  | .registerRobot robotId => registerRobot x.origin robotId
  | .enqueueCommand command => enqueueCommand x.origin command
  | .pullNext robotId => pullNext x.origin robotId

/-! ### What each call does

`Accepts` and `Refuses` are the specification of the calls as two inductive relations, one
constructor for each way a call can end; `dispatch_ok_iff` and `dispatch_error_iff` say that
they describe `dispatch` exactly. -/

/-- A signed call that returns, with the storage before and after it. -/
inductive Accepts : Storage T → Call T → Storage T → Prop where
  | registerRobot (s : Storage T) (r : T.RobotId) :
      Accepts s (.registerRobot r) { s with registeredRobots := insert r s.registeredRobots }
  | enqueueCommand (s : Storage T) (c : Command T) (q : BoundedVec (Command T) T.MaxGlobalCommands)
      (hq : q.toList = s.globalCommandQueue.toList ++ [c]) :
      Accepts s (.enqueueCommand c)
        { s with globalCommandQueue := q, events := s.events ++ [.commandEnqueued c] }
  | pullNext (s : Storage T) (r : T.RobotId) (c : Command T)
      (q : BoundedVec (Command T) T.MaxGlobalCommands)
      (hr : r ∈ s.registeredRobots) (hq : s.globalCommandQueue.toList = c :: q.toList) :
      Accepts s (.pullNext r)
        { s with globalCommandQueue := q,
                 events := s.events ++ [.commandPulled r c (coordinate c)] }

/-- A call that fails, with the error it fails with. -/
inductive Refuses (s : Storage T) : Extrinsic T → DispatchError Error → Prop where
  | badOrigin (x : Extrinsic T) (h : ∀ who, x.origin ≠ .signed who) : Refuses s x .badOrigin
  | queueFull (who : T.AccountId) (c : Command T)
      (h : s.globalCommandQueue.toList.length = T.MaxGlobalCommands) :
      Refuses s ⟨.signed who, .enqueueCommand c⟩ (.pallet .queueFull)
  | invalidRobotId (who : T.AccountId) (r : T.RobotId) (h : r ∉ s.registeredRobots) :
      Refuses s ⟨.signed who, .pullNext r⟩ (.pallet .invalidRobotId)
  | queueEmpty (who : T.AccountId) (r : T.RobotId) (hr : r ∈ s.registeredRobots)
      (h : s.globalCommandQueue.toList = []) :
      Refuses s ⟨.signed who, .pullNext r⟩ (.pallet .queueEmpty)

section Spec

variable {s s' : Storage T} {x : Extrinsic T}

theorem ensureSigned_unsigned {o : Origin T.AccountId} (h : ∀ who, o ≠ .signed who) :
    (Frame.ensureSigned o : DispatchM T T.AccountId) = throw .badOrigin := by
  cases o with
  | signed who => exact absurd rfl (h who)
  | root => rfl
  | none => rfl

theorem dispatch_unsigned (h : ∀ who, x.origin ≠ .signed who) :
    dispatch x s = .error .badOrigin s := by
  obtain ⟨o, c⟩ := x
  cases c <;>
    simp only [dispatch, registerRobot, enqueueCommand, pullNext, ensureSigned_unsigned h] <;> rfl

theorem enqueueCommand_signed (who : T.AccountId) (c : Command T) :
    enqueueCommand (.signed who) c s =
      match s.globalCommandQueue.tryPush c with
      | some q => .ok () { s with globalCommandQueue := q,
                                  events := s.events ++ [.commandEnqueued c] }
      | none => .error (.pallet .queueFull) s := by
  -- past the origin check and the read of the queue
  change EStateM.bind (Frame.okOr (s.globalCommandQueue.tryPush c) Error.queueFull) _ s = _
  cases s.globalCommandQueue.tryPush c <;> rfl

theorem pullNext_signed_unregistered (who : T.AccountId) {r : T.RobotId}
    (h : r ∉ s.registeredRobots) :
    pullNext (.signed who) r s = .error (.pallet .invalidRobotId) s := by
  change EStateM.bind (Frame.ensure (r ∈ s.registeredRobots) Error.invalidRobotId) _ s = _
  rw [Frame.ensure, if_neg h]
  rfl

theorem pullNext_signed_registered (who : T.AccountId) {r : T.RobotId}
    (h : r ∈ s.registeredRobots) :
    pullNext (.signed who) r s =
      match s.globalCommandQueue.get? 0 with
      | some c => .ok () { s with globalCommandQueue := s.globalCommandQueue.remove 0,
                                  events := s.events ++ [.commandPulled r c (coordinate c)] }
      | none => .error (.pallet .queueEmpty) s := by
  change EStateM.bind (Frame.ensure (r ∈ s.registeredRobots) Error.invalidRobotId) _ s = _
  rw [Frame.ensure, if_pos h]
  -- past the registration check
  change EStateM.bind (Frame.okOr (s.globalCommandQueue.get? 0) Error.queueEmpty) _ s = _
  cases s.globalCommandQueue.get? 0 <;> rfl

/-- Every call ends in one of the ways `Accepts` and `Refuses` list, and a failing call leaves
the storage as it was. -/
theorem dispatch_cases (s : Storage T) (x : Extrinsic T) :
    (∃ who s', x.origin = .signed who ∧ Accepts s x.call s' ∧ dispatch x s = .ok () s') ∨
      (∃ e, Refuses s x e ∧ dispatch x s = .error e s) := by
  obtain ⟨o, call⟩ := x
  -- all three calls check the origin before anything else
  by_cases ho : ∀ who, o ≠ .signed who
  · exact Or.inr ⟨_, .badOrigin _ ho, dispatch_unsigned ho⟩
  · push Not at ho
    obtain ⟨who, rfl⟩ := ho
    cases call with
    | registerRobot r => exact Or.inl ⟨who, _, rfl, .registerRobot s r, rfl⟩
    | enqueueCommand c =>
      have hcall := enqueueCommand_signed (s := s) who c
      rcases Nat.lt_or_eq_of_le s.globalCommandQueue.length_le with hlt | hfull
      · obtain ⟨q, hpush, hq⟩ := BoundedVec.tryPush_of_lt (a := c) hlt
        rw [hpush] at hcall
        exact Or.inl ⟨who, _, rfl, .enqueueCommand s c q hq, hcall⟩
      · rw [BoundedVec.tryPush_of_full hfull] at hcall
        exact Or.inr ⟨_, .queueFull who c hfull, hcall⟩
    | pullNext r =>
      by_cases hr : r ∈ s.registeredRobots
      · have hcall := pullNext_signed_registered who hr
        cases hq : s.globalCommandQueue.toList with
        | nil =>
          rw [BoundedVec.get?, hq] at hcall
          exact Or.inr ⟨_, .queueEmpty who r hr hq, hcall⟩
        | cons c rest =>
          rw [BoundedVec.get?, hq] at hcall
          refine Or.inl ⟨who, _, rfl, .pullNext s r c (s.globalCommandQueue.remove 0) hr ?_, hcall⟩
          rw [BoundedVec.toList_remove, hq]
          rfl
      · exact Or.inr ⟨_, .invalidRobotId who r hr, pullNext_signed_unregistered who hr⟩

/-- The storage after an accepted call is determined by the storage before it. -/
theorem Accepts.unique {call : Call T} {s₁ s₂ : Storage T} (h₁ : Accepts s call s₁)
    (h₂ : Accepts s call s₂) : s₁ = s₂ := by
  cases h₁ with
  | registerRobot r => cases h₂; rfl
  | enqueueCommand c q hq =>
    cases h₂ with
    | enqueueCommand _ q' hq' => rw [BoundedVec.ext (hq.trans hq'.symm)]
  | pullNext r c q hr hq =>
    cases h₂ with
    | pullNext _ c' q' hr' hq' =>
      obtain ⟨rfl, hqq⟩ := List.cons.inj (hq.symm.trans hq')
      rw [BoundedVec.ext hqq]

/-- A refused call is refused with one error only. -/
theorem Refuses.unique {e₁ e₂ : DispatchError Error} (h₁ : Refuses s x e₁)
    (h₂ : Refuses s x e₂) : e₁ = e₂ := by
  cases h₁ with
  | badOrigin _ ho => cases h₂ <;> first | rfl | exact absurd rfl (ho _)
  | queueFull who c h =>
    cases h₂ with
    | badOrigin _ ho => exact absurd rfl (ho who)
    | queueFull => rfl
  | invalidRobotId who r h =>
    cases h₂ with
    | badOrigin _ ho => exact absurd rfl (ho who)
    | invalidRobotId => rfl
    | queueEmpty _ _ hr _ => exact absurd hr h
  | queueEmpty who r hr h =>
    cases h₂ with
    | badOrigin _ ho => exact absurd rfl (ho who)
    | invalidRobotId _ _ hr' => exact absurd hr hr'
    | queueEmpty => rfl

/-- No call is both accepted and refused. -/
theorem Accepts.not_refuses {who : T.AccountId} {call : Call T} {e : DispatchError Error}
    (h : Accepts s call s') : ¬ Refuses s ⟨.signed who, call⟩ e := by
  intro href
  cases href with
  | badOrigin _ ho => exact ho who rfl
  | queueFull _ c hfull =>
    cases h with
    | enqueueCommand _ q hq =>
      -- the new queue is one longer than the bound
      have hle := q.length_le
      rw [hq, List.length_append, List.length_singleton, hfull] at hle
      omega
  | invalidRobotId _ r hr =>
    cases h with
    | pullNext _ c q hr' hq => exact hr hr'
  | queueEmpty _ r hr hempty =>
    cases h with
    | pullNext _ c q hr' hq => exact absurd (hempty.symm.trans hq) (by simp)

/-- A call returns exactly when it is signed and accepted. -/
theorem dispatch_ok_iff :
    dispatch x s = .ok () s' ↔ ∃ who, x.origin = .signed who ∧ Accepts s x.call s' := by
  refine ⟨?_, ?_⟩
  · intro h
    rcases dispatch_cases s x with ⟨who, s'', ho, hacc, hd⟩ | ⟨e, -, hd⟩
    · rw [h] at hd
      cases hd
      exact ⟨who, ho, hacc⟩
    · rw [h] at hd
      cases hd
  · rintro ⟨who, ho, hacc⟩
    obtain ⟨o, call⟩ := x
    obtain rfl : o = .signed who := ho
    rcases dispatch_cases s ⟨.signed who, call⟩ with ⟨_, s'', -, hacc', hd⟩ | ⟨e, href, -⟩
    · rw [hd, hacc.unique hacc']
    · exact absurd href hacc.not_refuses

/-- A call fails exactly when it is refused, and then it leaves the storage as it was. -/
theorem dispatch_error_iff {e : DispatchError Error} :
    dispatch x s = .error e s' ↔ s' = s ∧ Refuses s x e := by
  rcases dispatch_cases s x with ⟨who, s'', ho, hacc, hd⟩ | ⟨e', href, hd⟩
  · refine ⟨?_, ?_⟩
    · intro h
      rw [h] at hd
      cases hd
    · rintro ⟨-, href⟩
      obtain ⟨o, call⟩ := x
      obtain rfl : o = .signed who := ho
      exact absurd href hacc.not_refuses
  · refine ⟨?_, ?_⟩
    · intro h
      rw [h] at hd
      cases hd
      exact ⟨rfl, href⟩
    · rintro ⟨rfl, href'⟩
      rw [hd, href.unique href']

theorem reply_eq_error_iff {e : DispatchError Error} :
    Framework.Exec.reply dispatch s x = .error e ↔ Refuses s x e := by
  refine ⟨?_, ?_⟩
  · intro h
    cases hx : dispatch x s with
    | ok u s' => simp only [Framework.Exec.reply_ok hx, reduceCtorEq] at h
    | error e' s' =>
      rw [Framework.Exec.reply_error hx] at h
      obtain rfl := Except.error.inj h
      exact (dispatch_error_iff.mp hx).2
  · intro href
    exact Framework.Exec.reply_error (dispatch_error_iff.mpr ⟨rfl, href⟩)

theorem reply_eq_ok_iff :
    Framework.Exec.reply dispatch s x = .ok () ↔ ∀ e, ¬ Refuses s x e := by
  refine ⟨?_, ?_⟩
  · intro hok e href
    exact absurd (hok.symm.trans (reply_eq_error_iff.mpr href)) (by simp)
  · intro h
    rcases dispatch_cases s x with ⟨_, _, -, -, hx⟩ | ⟨e, href, -⟩
    · exact Framework.Exec.reply_ok hx
    · exact absurd href (h e)

/-- The pallet's calls are atomic: a failing call writes nothing. -/
theorem dispatch_atomic : Framework.Exec.Atomic (dispatch (T := T)) :=
  fun _ _ _ _ h => (dispatch_error_iff.mp h).1

end Spec
end Swarm
end SwarmBase
