import SwarmBase.Framework.Replay
import SwarmBase.Pallet.History

/-!
# Runs of the swarm pallet that do the same

What a run does to the storage, up to the order and the number of the registrations, and up to
the names of robots, places, tasks and accounts.

* `registrations_first` — a run can be replayed without its failed calls, with all robots
  registered at the start, each once and in any order;
* `run_renamed` — the pallet never looks into a command or at a signer, and all it does with a
  robot id is to compare it: renaming commutes with every run.
-/

namespace SwarmBase.Swarm

open Framework

/-! ### Registrations first -/

section Replay

variable {T : Config} {s s' : Storage T} {x : Extrinsic T} {xs regs : List (Extrinsic T)}

def Call.isRegistration : Call T → Bool
  | .registerRobot _ => true
  | _ => false

/-- The storage with more robots registered. -/
def Storage.register (s : Storage T) (rs : Finset T.RobotId) : Storage T :=
  { s with registeredRobots := s.registeredRobots ∪ rs }

theorem Accepts.register {call : Call T} (h : Accepts s call s') (rs : Finset T.RobotId) :
    Accepts (s.register rs) call (s'.register rs) := by
  cases h with
  | registerRobot r =>
    have hregister := Accepts.registerRobot (s.register rs) r
    unfold Storage.register at hregister ⊢
    rwa [← Finset.insert_union] at hregister
  | enqueueCommand c q hq => exact .enqueueCommand (s.register rs) c q hq
  | pullNext r c q hr hq =>
    exact .pullNext (s.register rs) r c q (Finset.mem_union_left rs hr) hq

theorem step_registration {who : T.AccountId} {r : T.RobotId} :
    (Exec.returns dispatch).step s ⟨.signed who, .registerRobot r⟩ s' ↔ s' = s.register {r} := by
  have hinsert : s.register {r} = { s with registeredRobots := insert r s.registeredRobots } := by
    unfold Storage.register
    rw [Finset.union_comm, ← Finset.insert_eq]
  rw [hinsert]
  refine ⟨?_, ?_⟩
  · rintro ⟨⟨⟩, hok⟩
    obtain ⟨_, -, hacc⟩ := dispatch_ok_iff.mp hok
    exact hacc.unique (.registerRobot s r)
  · rintro rfl
    exact ⟨(), dispatch_ok_iff.mpr ⟨who, rfl, .registerRobot s r⟩⟩

/-- No call that returns needs a robot not to be registered. -/
theorem movesLeft_registration :
    (Exec.returns (dispatch (T := T))).MovesLeft fun x => x.call.isRegistration := by
  rintro s s₁ s₂ x ⟨o, call⟩ - hcall ⟨⟨⟩, hx⟩ ⟨⟨⟩, hy⟩
  obtain ⟨who, hwho, hacc⟩ := dispatch_ok_iff.mp hx
  obtain ⟨who', rfl, -⟩ := dispatch_ok_iff.mp hy
  cases call with
  | registerRobot r =>
    obtain rfl := step_registration.mp ⟨(), hy⟩
    exact ⟨_, step_registration.mpr rfl, (), dispatch_ok_iff.mpr ⟨who, hwho, hacc.register {r}⟩⟩
  | enqueueCommand | pullNext => cases hcall

/-- Signed registrations all return, and all that counts is which robots they name. -/
theorem run_registrations (s : Storage T)
    (hregs : ∀ x ∈ regs, ∃ who r, x = ⟨.signed who, .registerRobot r⟩) :
    (Exec.returns dispatch).Run s regs (s.register (registrations regs)) := by
  induction regs using List.reverseRecOn with
  | nil =>
    have hsame : s.register (registrations []) = s := by
      unfold Storage.register
      exact congrArg (fun rs => Storage.mk rs s.globalCommandQueue s.events) (Finset.union_empty _)
    rw [hsame]
    exact .nil s
  | append_singleton regs x ih =>
    obtain ⟨who, r, rfl⟩ := hregs x (List.mem_append_right _ (List.mem_singleton_self x))
    refine (ih fun y hy => hregs y (List.mem_append_left _ hy)).concat ?_
    -- a robot that is already registered is registered once more without an error
    rw [step_registration, registrations_concat]
    unfold Storage.register
    dsimp only
    rw [Finset.union_assoc]
    rfl

/-- The registrations of a run that return are those that are signed. -/
theorem registrations_accepted (s : Storage T) (xs : List (Extrinsic T)) :
    registrations ((Exec.accepted dispatch s xs).filter fun x => x.call.isRegistration) =
      registrations xs := by
  induction xs using List.reverseRecOn with
  | nil => rfl
  | append_singleton xs x ih =>
    rw [registrations_concat, ← ih]
    -- a call that is refused leaves both sides as they are
    obtain ⟨who, s', ho, -, hx⟩ | ⟨e, href, hx⟩ := dispatch_cases (Exec.run dispatch s xs) x
    · rw [Exec.accepted_concat_ok hx, List.filter_append]
      obtain ⟨o, call⟩ := x
      obtain rfl : o = .signed who := ho
      cases call with
      | registerRobot r => exact registrations_concat _ _
      | enqueueCommand | pullNext =>
        show registrations (_ ++ []) = _ ∪ ∅
        rw [List.append_nil, Finset.union_empty]
    · rw [Exec.accepted_concat_error hx, href.registration_eq_none, Option.toFinset_none,
        Finset.union_empty]

/-- The calls of a run that a replay keeps, besides the registrations. -/
def replayed (s : Storage T) (xs : List (Extrinsic T)) : List (Extrinsic T) :=
  (Exec.accepted dispatch s xs).filter fun x => !x.call.isRegistration

/-- **Every run can be replayed with its robots registered first.** From any storage: take any
signed registrations of the robots that the run registers, in any order and number, and after them
the other calls of the run that returned. All of them return, and they leave the same registry, the
same queue and the same events as the run. -/
theorem registrations_first (s : Storage T) (xs : List (Extrinsic T))
    (hregs : ∀ x ∈ regs, ∃ who r, x = ⟨.signed who, .registerRobot r⟩)
    (hsame : registrations regs = registrations xs) :
    Exec.accepted dispatch s (regs ++ replayed s xs) = regs ++ replayed s xs ∧
      Exec.run dispatch s (regs ++ replayed s xs) = Exec.run dispatch s xs := by
  refine Exec.accepted_of_run ?_
  have hfirst := (dispatch_atomic.accepted_run s xs).movers_first movesLeft_registration
  obtain ⟨t, hregistered, hothers⟩ := hfirst.exists_of_append
  refine (run_registrations s hregs).append ?_
  -- the registrations of the run lead to the same storage
  have hown : ∀ x ∈ (Exec.accepted dispatch s xs).filter fun x => x.call.isRegistration,
      ∃ who r, x = ⟨.signed who, .registerRobot r⟩ := by
    intro x hx
    obtain ⟨hacc, hcall⟩ := List.mem_filter.mp hx
    obtain ⟨pre, post, ⟨⟩, s', -, hok⟩ := Exec.mem_accepted hacc
    obtain ⟨who, hwho, -⟩ := dispatch_ok_iff.mp hok
    obtain ⟨o, call⟩ := x
    obtain rfl : o = .signed who := hwho
    cases call with
    | registerRobot r => exact ⟨who, r, rfl⟩
    | enqueueCommand | pullNext => cases hcall
  have ht : t = s.register (registrations regs) := by
    rw [hsame, ← registrations_accepted s xs, ← (Exec.accepted_of_run hregistered).2]
    exact (Exec.accepted_of_run (run_registrations s hown)).2
  rwa [← ht]

/-- A run with a failed pull, a robot registered twice and one registered late. -/
theorem registrations_first_late :
    let xs : List (Extrinsic Runtime) := [⟨.signed 0, .pullNext 7⟩, ⟨.signed 0, .registerRobot 7⟩,
      ⟨.signed 1, .enqueueCommand .halt⟩, ⟨.signed 0, .registerRobot 8⟩, ⟨.root, .registerRobot 9⟩,
      ⟨.signed 1, .registerRobot 7⟩, ⟨.signed 0, .pullNext 8⟩]
    let regs : List (Extrinsic Runtime) := [⟨.signed 5, .registerRobot 8⟩,
      ⟨.signed 5, .registerRobot 7⟩]
    Exec.accepted dispatch (Storage.empty Runtime) (regs ++ replayed (Storage.empty Runtime) xs) =
        regs ++ replayed (Storage.empty Runtime) xs ∧
      Exec.run dispatch (Storage.empty Runtime) (regs ++ replayed (Storage.empty Runtime) xs) =
        Exec.run dispatch (Storage.empty Runtime) xs :=
  registrations_first _ _ (by simp) (by decide)

end Replay

/-! ### Renaming -/

section Renaming

variable {T T' : Config}

/-- Names of one configuration for those of another with the same bound. Different robots have
different names. -/
structure Renaming (T T' : Config) where
  accountId : T.AccountId → T'.AccountId
  location : T.Location → T'.Location
  robotId : T.RobotId → T'.RobotId
  taskDefinition : T.TaskDefinition → T'.TaskDefinition
  robotId_injective : Function.Injective robotId
  maxGlobalCommands_eq : T.MaxGlobalCommands = T'.MaxGlobalCommands

namespace Renaming

variable (f : Renaming T T')

def command : Command T → Command T'
  | .goToLocation c => .goToLocation (f.location c)
  | .performTask t => .performTask (f.taskDefinition t)
  | .halt => .halt
  | .waitForCommand => .waitForCommand

def event : Event T → Event T'
  | .commandEnqueued c => .commandEnqueued (f.command c)
  | .commandPulled r c l => .commandPulled (f.robotId r) (f.command c) (l.map f.location)

def queue (q : BoundedVec (Command T) T.MaxGlobalCommands) :
    BoundedVec (Command T') T'.MaxGlobalCommands where
  toList := q.toList.map f.command
  length_le := by
    rw [List.length_map, ← f.maxGlobalCommands_eq]
    exact q.length_le

def storage (s : Storage T) : Storage T' where
  registeredRobots := s.registeredRobots.image f.robotId
  globalCommandQueue := f.queue s.globalCommandQueue
  events := s.events.map f.event

def origin : Origin T.AccountId → Origin T'.AccountId
  | .root => .root
  | .signed who => .signed (f.accountId who)
  | .none => .none

def call : Call T → Call T'
  | .registerRobot r => .registerRobot (f.robotId r)
  | .enqueueCommand c => .enqueueCommand (f.command c)
  | .pullNext r => .pullNext (f.robotId r)

def extrinsic (x : Extrinsic T) : Extrinsic T' := ⟨f.origin x.origin, f.call x.call⟩

variable {s s' : Storage T} {x : Extrinsic T}

@[simp] theorem toList_queue (q : BoundedVec (Command T) T.MaxGlobalCommands) :
    (f.queue q).toList = q.toList.map f.command := rfl

theorem mem_registeredRobots_storage {r : T.RobotId} :
    f.robotId r ∈ (f.storage s).registeredRobots ↔ r ∈ s.registeredRobots :=
  f.robotId_injective.mem_finset_image

theorem coordinate_command (c : Command T) :
    coordinate (f.command c) = (coordinate c).map f.location := by
  cases c <;> rfl

theorem accepts {call : Call T} (h : Accepts s call s') :
    Accepts (f.storage s) (f.call call) (f.storage s') := by
  cases h with
  | registerRobot r =>
    have hregister := Accepts.registerRobot (f.storage s) (f.robotId r)
    unfold storage at hregister ⊢
    -- the image of the registry with one more robot
    rwa [← Finset.image_insert] at hregister
  | enqueueCommand c q hq =>
    have hqueue : (f.queue q).toList =
        (f.storage s).globalCommandQueue.toList ++ [f.command c] := by
      rw [toList_queue, hq, List.map_append]
      rfl
    have hpush := Accepts.enqueueCommand (f.storage s) (f.command c) (f.queue q) hqueue
    unfold storage at hpush ⊢
    rw [List.map_append]
    exact hpush
  | pullNext r c q hr hq =>
    have hqueue : (f.storage s).globalCommandQueue.toList = f.command c :: (f.queue q).toList :=
      congrArg (List.map f.command) hq
    have hpull := Accepts.pullNext (f.storage s) (f.robotId r) (f.command c) (f.queue q)
      (f.mem_registeredRobots_storage.mpr hr) hqueue
    rw [coordinate_command] at hpull
    unfold storage at hpull ⊢
    rw [List.map_append]
    exact hpull

theorem refuses {e : DispatchError Error} (h : Refuses s x e) :
    Refuses (f.storage s) (f.extrinsic x) e := by
  cases h with
  | badOrigin _ ho =>
    refine .badOrigin _ fun who hwho => ?_
    obtain ⟨o, call⟩ := x
    cases o with
    | signed who' => exact ho who' rfl
    | root | none => cases hwho
  | queueFull who c hfull =>
    refine .queueFull _ _ ?_
    show (s.globalCommandQueue.toList.map f.command).length = _
    rw [List.length_map, hfull, f.maxGlobalCommands_eq]
  | invalidRobotId who r hr =>
    exact .invalidRobotId _ _ (mt f.mem_registeredRobots_storage.mp hr)
  | queueEmpty who r hr hempty =>
    exact .queueEmpty _ _ (f.mem_registeredRobots_storage.mpr hr) (congrArg (List.map _) hempty)

/-- **One call.** -/
theorem renames : Exec.Renames dispatch dispatch f.extrinsic f.storage := by
  intro x s
  obtain ⟨who, s', ho, hacc, hok⟩ | ⟨e, href, herror⟩ := dispatch_cases s x
  · rw [hok]
    refine dispatch_ok_iff.mpr ⟨f.accountId who, ?_, f.accepts hacc⟩
    show f.origin x.origin = _
    rw [ho]
    rfl
  · rw [herror]
    exact dispatch_error_iff.mpr ⟨rfl, f.refuses href⟩

end Renaming

/-- **Renaming commutes with every run.** Between any two configurations with the same bound, for
any renaming of the accounts, places and tasks, and any injective one of the robots: the renamed run
ends in the renamed storage, events included, and every call made after it is answered as it was. -/
theorem run_renamed (f : Renaming T T') (xs : List (Extrinsic T)) :
    run (xs.map f.extrinsic) = f.storage (run xs) ∧
      ∀ x, Exec.reply dispatch (run (xs.map f.extrinsic)) (f.extrinsic x) =
        Exec.reply dispatch (run xs) x := by
  have hrun : run (xs.map f.extrinsic) = f.storage (run xs) := f.renames.run_eq (Storage.empty T) xs
  refine ⟨hrun, ?_⟩
  intro x
  rw [hrun]
  exact f.renames.reply_eq (run xs) x

/-- Robots `0` and `1` change names, all accounts become one, and the picture is mirrored along its
diagonal. -/
def swapped : Renaming Runtime Runtime where
  accountId _ := 7
  location c := ⟨c.y, c.x⟩
  robotId := Equiv.swap 0 1
  taskDefinition t := t + 1
  robotId_injective := (Equiv.swap (0 : UInt32) 1).injective
  maxGlobalCommands_eq := rfl

/-- Robot `0` pulls a location, and a task stays queued. The renamed run is that of robot `1`, with
the location mirrored, and it has no robot `0`, which is refused a pull as robot `1` was before. -/
theorem run_renamed_swapped :
    let xs : List (Extrinsic Runtime) := [⟨.signed 1, .registerRobot 0⟩,
      ⟨.signed 2, .enqueueCommand (.goToLocation ⟨10, 20⟩)⟩, ⟨.signed 1, .pullNext 0⟩,
      ⟨.signed 2, .enqueueCommand (.performTask 4)⟩, ⟨.root, .enqueueCommand .halt⟩]
    xs.map swapped.extrinsic = [⟨.signed 7, .registerRobot 1⟩,
        ⟨.signed 7, .enqueueCommand (.goToLocation ⟨20, 10⟩)⟩, ⟨.signed 7, .pullNext 1⟩,
        ⟨.signed 7, .enqueueCommand (.performTask 5)⟩, ⟨.root, .enqueueCommand .halt⟩] ∧
      run (xs.map swapped.extrinsic) = swapped.storage (run xs) ∧
      (run (xs.map swapped.extrinsic)).registeredRobots = {1} ∧
      Exec.reply dispatch (run (xs.map swapped.extrinsic)) ⟨.signed 7, .pullNext 0⟩ =
        Exec.reply dispatch (run xs) ⟨.signed 3, .pullNext 1⟩ := by
  intro xs
  have hrun := run_renamed swapped xs
  exact ⟨rfl, hrun.1, by decide, hrun.2 ⟨.signed 3, .pullNext 1⟩⟩

end Renaming

end SwarmBase.Swarm
