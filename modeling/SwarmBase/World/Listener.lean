import SwarmBase.World.Delivery

/-!
# Listening to pulled commands

`listenToCommandEvents` of `lib/polkadot.ts` subscribes to the events of the chain and calls back
for every `CommandPulled`, with the robot id written out and the command as it is rendered. A
rendered command has everything in it that the command has (`readCommand_commandToHuman`), which a
reader gets back who knows the commands of the pallet and takes the commas out of the numerals.

* `listener_hears_queue` — what a listener hears, read back in this way, is which robot pulled which
  command, in the order in which the commands were enqueued.
-/

namespace SwarmBase

open Framework

/-! ### `listenToCommandEvents` -/

/-- A call of `onCommand`. -/
structure Heard where
  id : String
  cmd : JsValue

/-- The code of the callback: it calls `onCommand` and may throw. -/
abbrev ListenM := EStateM TypeError (List Heard)

/-- A missing element of `data` is `undefined`, of which any method throws. -/
def elementAt (data : List Codec) (i : ℕ) : ListenM Codec :=
  match data[i]? with
  | some codec => pure codec
  | none => throw .typeError

section Listener

variable (text : Codec → String)

def listenToRecord (record : EventRecord) : ListenM Unit := do
  if record.sectionName = "swarmRobotPallet" ∧ record.methodName = "CommandPulled" then
    let id ← elementAt record.data 0
    let cmd ← elementAt record.data 1
    modify (· ++ [⟨text id, cmd.toHuman⟩])

/-- The callback on the events of a block, given how `toString()` writes a value out. -/
def listenToCommandEvents (events : List EventRecord) : ListenM Unit :=
  events.forM (listenToRecord text)

/-- The calls of `onCommand` after some blocks. The subscription goes on after an exception. -/
def heard (blocks : List (List EventRecord)) : List Heard :=
  Exec.run (listenToCommandEvents text) [] blocks

/-- `toString()` writes a number out in decimal. -/
def WritesNumbers : Prop := ∀ n, text (.u32 n) = String.ofList (Nat.toDigits 10 n.toNat)

/-- The call for an event of a block. -/
def BlockEvent.heard? : BlockEvent → Option Heard
  | .swarm (.commandPulled r c _) => some ⟨text (.u32 r), commandToHuman c⟩
  | _ => none

theorem listenToRecord_record (e : BlockEvent) (hs : List Heard) :
    listenToRecord text e.record hs = .ok () (hs ++ (e.heard? text).toList) := by
  match e with
  | .swarm (.commandEnqueued c) =>
    show EStateM.Result.ok () hs = .ok () (hs ++ [])
    rw [List.append_nil]
  | .swarm (.commandPulled r c l) => rfl
  | .other r h =>
    have hskip : ¬ (r.sectionName = "swarmRobotPallet" ∧ r.methodName = "CommandPulled") :=
      fun hboth => h hboth.1
    unfold listenToRecord BlockEvent.record
    rw [if_neg hskip]
    show EStateM.Result.ok () hs = .ok () (hs ++ [])
    rw [List.append_nil]

/-- The callback never throws on the events of a block. -/
theorem listenToCommandEvents_block (block : List BlockEvent) (hs : List Heard) :
    listenToCommandEvents text (block.map BlockEvent.record) hs =
      .ok () (hs ++ block.filterMap (BlockEvent.heard? text)) := by
  induction block generalizing hs with
  | nil =>
    rw [List.filterMap_nil, List.append_nil]
    rfl
  | cons e block ih =>
    have hfirst : listenToCommandEvents text ((e :: block).map BlockEvent.record) = (do
        listenToRecord text e.record
        listenToCommandEvents text (block.map BlockEvent.record)) := rfl
    rw [hfirst]
    show EStateM.bind (listenToRecord text e.record) _ hs = _
    unfold EStateM.bind
    rw [listenToRecord_record]
    dsimp only
    rw [ih, List.append_assoc]
    cases he : e.heard? text with
    | none => rw [List.filterMap_cons_none he, Option.toList_none, List.nil_append]
    | some h => rw [List.filterMap_cons_some he, Option.toList_some, List.singleton_append]

theorem heard_blocks (blocks : List (List BlockEvent)) :
    heard text (blocks.map (List.map BlockEvent.record)) =
      blocks.flatten.filterMap (BlockEvent.heard? text) := by
  induction blocks using List.reverseRecOn with
  | nil => rfl
  | append_singleton blocks block ih =>
    have hlast := listenToCommandEvents_block text block
      (heard text (blocks.map (List.map BlockEvent.record)))
    rw [ih, ← List.filterMap_append] at hlast
    rw [List.map_append, List.flatten_append]
    unfold heard at ih ⊢
    rw [List.map_singleton, Exec.run_concat, ih, Exec.next_ok hlast, List.flatten_singleton]

end Listener

/-! ### Reading a call back -/

/-- A numeral, with or without commas. -/
def readNumeral (s : String) : Option UInt32 :=
  (JsNumber.digits? (s.toList.filter (· ≠ ','))).map UInt32.ofNat

def readHuman : JsValue → Option UInt32
  | .str s => readNumeral s
  | _ => none

def readCommand : JsValue → Option (Command Runtime)
  | .str s =>
    if s = "Halt" then some .halt
    else if s = "WaitForCommand" then some .waitForCommand
    else none
  | .obj [("GoToLocation", .obj [("x", x), ("y", y)])] => do
    return .goToLocation ⟨← readHuman x, ← readHuman y⟩
  | .obj [("PerformTask", t)] => do
    return .performTask (← readHuman t)
  | _ => none

/-- The robot and the command of a call. -/
def Heard.read (h : Heard) : Option (UInt32 × Command Runtime) := do
  return (← readNumeral h.id, ← readCommand h.cmd)

theorem readHuman_u32ToHuman (n : UInt32) : readHuman (u32ToHuman n) = some n := by
  show (JsNumber.digits? ((String.ofList _).toList.filter (· ≠ ','))).map UInt32.ofNat = _
  rw [String.toList_ofList, JsNumber.digits?_groupThousands, Option.map_some, UInt32.ofNat_toNat]

/-- **Rendering loses nothing.** -/
theorem readCommand_commandToHuman (c : Command Runtime) :
    readCommand (commandToHuman c) = some c := by
  cases c with
  | goToLocation c =>
    show (do return Command.goToLocation ⟨← readHuman (u32ToHuman c.x),
      ← readHuman (u32ToHuman c.y)⟩ : Option (Command Runtime)) = _
    rw [readHuman_u32ToHuman, readHuman_u32ToHuman]
    rfl
  | performTask t =>
    show (do return Command.performTask (← readHuman (u32ToHuman t)) :
      Option (Command Runtime)) = _
    rw [readHuman_u32ToHuman]
    rfl
  | halt | waitForCommand => rfl

theorem readNumeral_text {text : Codec → String} (htext : WritesNumbers text) (n : UInt32) :
    readNumeral (text (.u32 n)) = some n := by
  have hcomma : ∀ c ∈ Nat.toDigits 10 n.toNat, decide (c ≠ ',') = true := by
    intro c hc
    refine decide_eq_true fun heq => ?_
    exact absurd (Nat.isDigit_of_mem_toDigits (by decide) (by decide) (heq ▸ hc)) (by decide)
  unfold readNumeral
  rw [htext, String.toList_ofList, List.filter_eq_self.mpr hcomma, JsNumber.digits?_toDigits,
    Option.map_some, UInt32.ofNat_toNat]

/-! ### What a listener hears -/

/-- The robot and the command of a `CommandPulled` event. -/
def Swarm.Event.pull? : Swarm.Event Runtime → Option (UInt32 × Command Runtime)
  | .commandPulled r c _ => some (r, c)
  | .commandEnqueued _ => none

/-- The calls for the events of a block, read back, are its pulls. -/
theorem read_heard {text : Codec → String} (htext : WritesNumbers text) (block : List BlockEvent) :
    (block.filterMap (BlockEvent.heard? text)).map Heard.read =
      ((block.filterMap BlockEvent.swarm?).filterMap Swarm.Event.pull?).map some := by
  rw [List.map_filterMap, List.map_filterMap, List.filterMap_filterMap]
  refine List.filterMap_congr fun e _ => ?_
  match e with
  | .other r h => rfl
  | .swarm (.commandEnqueued c) => rfl
  | .swarm (.commandPulled r c l) =>
    show some (Heard.read ⟨text (.u32 r), commandToHuman c⟩) = some (some (r, c))
    unfold Heard.read
    dsimp only
    rw [readNumeral_text htext, readCommand_commandToHuman]
    rfl

theorem map_snd_pull (es : List (Swarm.Event Runtime)) :
    (es.filterMap Swarm.Event.pull?).map Prod.snd = Swarm.pulledCommands es := by
  unfold Swarm.pulledCommands
  rw [List.map_filterMap]
  refine List.filterMap_congr fun e _ => ?_
  cases e <;> rfl

/-- A robot that pulled a command is registered. -/
theorem registered_of_pulled {xs : List (Swarm.Extrinsic Runtime)} {r : UInt32}
    {c : Command Runtime} {l : Option Coordinate}
    (h : Swarm.Event.commandPulled r c l ∈ (Swarm.run xs).events) :
    r ∈ (Swarm.run xs).registeredRobots := by
  obtain ⟨i, hi⟩ := List.mem_iff_getElem?.mp h
  obtain ⟨-, pre, x, post, s', rfl, hcall, hok, -⟩ := (Swarm.run_history xs).pulledSound i _ hi
  obtain ⟨who, hwho, -⟩ := Swarm.dispatch_ok_iff.mp hok
  have hx : Swarm.registration x = some r := by
    obtain ⟨o, call⟩ := x
    obtain rfl : o = .signed who := hwho
    obtain rfl : call = .registerRobot r := hcall
    rfl
  rw [Swarm.run_registered, Swarm.registrations, List.mem_toFinset]
  exact List.mem_filterMap.mpr ⟨x, List.mem_append_right _ List.mem_cons_self, hx⟩

/-- **A listener hears the queue.** After every run of calls on the chain, and for a listener that
is given the events from any point of the log on, in any blocks and among any events of other
pallets: every call it makes can be read back as a robot and a command, the robots are registered,
and the commands pulled before it listened, then those it heard, and then the queue in storage, are
the commands that were enqueued, in their order. -/
theorem listener_hears_queue {text : Codec → String} (htext : WritesNumbers text)
    (xs : List (Swarm.Extrinsic Runtime)) (n : ℕ) (blocks : List (List BlockEvent))
    (hblocks : blocks.flatten.filterMap BlockEvent.swarm? = (Swarm.run xs).events.drop n) :
    ∃ pulls : List (UInt32 × Command Runtime),
      (heard text (blocks.map (List.map BlockEvent.record))).map Heard.read = pulls.map some ∧
      (∀ p ∈ pulls, p.1 ∈ (Swarm.run xs).registeredRobots) ∧
      Swarm.pulledCommands ((Swarm.run xs).events.take n) ++ pulls.map Prod.snd ++
          (Swarm.run xs).globalCommandQueue.toList =
        Swarm.enqueuedCommands (Swarm.run xs).events := by
  refine ⟨((Swarm.run xs).events.drop n).filterMap Swarm.Event.pull?, ?_, ?_, ?_⟩
  · rw [heard_blocks, read_heard htext, hblocks]
  · intro p hp
    obtain ⟨e, he, hpull⟩ := List.mem_filterMap.mp hp
    cases e with
    | commandEnqueued c => cases hpull
    | commandPulled r c l =>
      obtain rfl := Option.some.inj hpull
      exact registered_of_pulled (List.mem_of_mem_drop he)
  · rw [map_snd_pull, ← Swarm.pulledCommands_append, List.take_append_drop]
    exact Swarm.pulled_append_queue xs

/-- A robot that pulls a task, heard between two events of another pallet. -/
theorem listener_hears_queue_task :
    let text : Codec → String := fun codec => match codec with
      | .u32 n => String.ofList (Nat.toDigits 10 n.toNat)
      | _ => ""
    let xs : List (Swarm.Extrinsic Runtime) := [⟨.signed 0, .registerRobot 7⟩,
      ⟨.signed 0, .enqueueCommand (.performTask 12345)⟩, ⟨.signed 0, .pullNext 7⟩]
    let blocks : List (List BlockEvent) := [[.other ⟨"balances", "Transfer", []⟩ (by decide),
        .swarm (.commandPulled 7 (.performTask 12345) none)],
      [.other ⟨"balances", "Transfer", []⟩ (by decide)]]
    ∃ pulls : List (UInt32 × Command Runtime),
      (heard text (blocks.map (List.map BlockEvent.record))).map Heard.read = pulls.map some ∧
      (∀ p ∈ pulls, p.1 ∈ (Swarm.run xs).registeredRobots) ∧
      Swarm.pulledCommands ((Swarm.run xs).events.take 1) ++ pulls.map Prod.snd ++
          (Swarm.run xs).globalCommandQueue.toList =
        Swarm.enqueuedCommands (Swarm.run xs).events :=
  listener_hears_queue (fun _ => rfl) _ 1 _ rfl

end SwarmBase
