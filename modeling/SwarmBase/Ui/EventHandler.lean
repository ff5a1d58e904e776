import SwarmBase.Framework.Javascript
import SwarmBase.Pallet.Runtime
import Mathlib.Algebra.Order.Ring.Rat

/-!
# Commands between the page and the chain

How a canvas click becomes a `Command` on chain, and how the page's `system.events` handler turns
the `CommandPulled` event of that command back into a movement target.

The chain's values reach the page through polkadot-js. `Codec` is a decoded value of the event,
and `toHuman` renders it: a variant without payload is its name, a variant with payload an object
with one field named after it, a struct an object of its fields, and a `u32` a decimal numeral
with its digits in groups of three. The handler ignores the event's third field, `coordinate`,
and reads the target off the rendered command.

`meaning_preserved_iff` says for which commands the page moves where the command says.
-/

namespace SwarmBase

open Framework

/-! ### From a click to a command -/

/-- The codec of a `u32` argument: an integer out of range is refused. -/
def u32OfInt (n : ℤ) : Option UInt32 :=
  if 0 ≤ n ∧ n < 2 ^ 32 then some (UInt32.ofNat n.toNat) else none

/-- The argument `{ GoToLocation: [x, y] }` of `enqueueCommand`, encoded. -/
def encodeGoToLocation (x y : ℤ) : Option (Command Runtime) := do
  let x ← u32OfInt x
  let y ← u32OfInt y
  return .goToLocation ⟨x, y⟩

/-! ### What the page sees of an event -/

/-- A decoded value in the data of an event. -/
inductive Codec where
  | u32 (n : UInt32)
  | command (c : Command Runtime)
  | location (l : Option Coordinate)

def u32ToHuman (n : UInt32) : JsValue :=
  .str (String.ofList (groupThousands (Nat.toDigits 10 n.toNat)))

def Coordinate.toHuman (c : Coordinate) : JsValue :=
  .obj [("x", u32ToHuman c.x), ("y", u32ToHuman c.y)]

def commandToHuman : Command Runtime → JsValue
  | .goToLocation c => .obj [("GoToLocation", c.toHuman)]
  | .performTask t => .obj [("PerformTask", u32ToHuman t)]
  | .halt => .str "Halt"
  | .waitForCommand => .str "WaitForCommand"

namespace Codec

/-- `toHuman()`. No code here renders an absent option. -/
def toHuman : Codec → JsValue
  | .u32 n => u32ToHuman n
  | .command c => commandToHuman c
  | .location l => l.elim .undefined Coordinate.toHuman

/-- `toNumber()`, which only integers have. -/
def toNumber? : Codec → Option ℕ
  | .u32 n => some n.toNat
  | _ => none

end Codec

/-- An event as the subscription delivers it. -/
structure EventRecord where
  sectionName : String
  methodName : String
  data : List Codec

/-- The record of a pallet event. -/
def eventRecord : Swarm.Event Runtime → EventRecord
  | .commandEnqueued c => ⟨"swarmRobotPallet", "CommandEnqueued", [.command c]⟩
  | .commandPulled r c l => ⟨"swarmRobotPallet", "CommandPulled", [.u32 r, .command c, .location l]⟩

/-! ### The handler -/

/-- The lines `updateEvents` appends to the log panel. -/
inductive LogLine where
  | connected
  | moving (robot : ℕ) (x y : JsNumber)
  | registering (robot : Option ℕ)
  | registerFailed (error : DispatchError Swarm.Error)
  | registered
  | commandFailed (error : DispatchError Swarm.Error)
  | sendingToRobots
  | pullFailed
  | pullError (error : DispatchError Swarm.Error)
  | finishedCommand
  deriving DecidableEq

/-- A movement target `{ x, y }`. -/
structure Target where
  x : JsNumber
  y : JsNumber
  deriving DecidableEq

/-- A state update the handler asks React for. -/
inductive HandlerUpdate where
  | updateEvents (line : LogLine)
  | setTarget (target : Target)
  deriving DecidableEq

/-- An exception of the handler. -/
inductive TypeError where
  | typeError
  deriving DecidableEq

/-- The handler's code: it asks for state updates and may throw; updates asked for before an
exception stand. -/
abbrev HandlerM := EStateM TypeError (List HandlerUpdate)

def orThrow {α : Type} : Option α → HandlerM α
  | some a => pure a
  | none => throw .typeError

def request (update : HandlerUpdate) : HandlerM Unit := modify (· ++ [update])

/-- `Number` of a number is the number itself. -/
def onMoveCommand (xRaw yRaw : JsNumber) : HandlerM Unit :=
  request (.setTarget ⟨xRaw, yRaw⟩)

/-- The coordinates the handler guesses out of a rendered command: those under `GoToLocation`, or
under whatever key comes first. -/
def guessTarget (human : JsValue) : HandlerM Target := do
  let named ← orThrow (human.get? "GoToLocation")
  -- `human.GoToLocation || human[Object.keys(human)[0]]`
  let coords ←
    if named.truthy then pure named
    else do
      let keys ← orThrow human.keys?
      orThrow (human.get? (keys[0]?.getD "undefined"))
  let x ← orThrow (coords.get? "x")
  let y ← orThrow (coords.get? "y")
  return ⟨x.toNumber, y.toNumber⟩

def handleRecord (record : EventRecord) : HandlerM Unit := do
  if record.sectionName = "swarmRobotPallet" ∧ record.methodName = "CommandPulled" then
    let rawId ← orThrow record.data[0]?
    let rawCmd ← orThrow record.data[1]?
    let idNum ← orThrow rawId.toNumber?
    let human := rawCmd.toHuman
    let coords ← guessTarget human
    request (.updateEvents (.moving idNum coords.x coords.y))
    onMoveCommand coords.x coords.y

/-- The `system.events` callback on one batch of records. -/
def handleRecords (records : List EventRecord) : HandlerM Unit := records.forM handleRecord

/-- The updates a batch of records asks for. -/
def handlerUpdates (records : List EventRecord) : List HandlerUpdate :=
  match handleRecords records [] with
  | .ok _ updates => updates
  | .error _ updates => updates

/-- The movement target after some updates. -/
def targetAfter (target : Option Target) (updates : List HandlerUpdate) : Option Target :=
  updates.foldl (fun t u => match u with
    | .setTarget target => some target
    | .updateEvents _ => t) target

/-! ### What the handler makes of a pulled command -/

/-- A `u32` after rendering and `Number`. -/
def readBack (n : UInt32) : JsNumber := (u32ToHuman n).toNumber

/-- From `1000` on a rendered `u32` has a comma, and is read back as `NaN`. -/
theorem readBack_eq (n : UInt32) : readBack n = if n.toNat < 1000 then .val n.toNat else .nan :=
  JsNumber.ofString_groupThousands n.toNat

theorem readBack_eq_val_iff (n : UInt32) : readBack n = .val n.toNat ↔ n.toNat < 1000 := by
  rw [readBack_eq]
  split_ifs with h <;> simp [h]

/-- Where the handler sends the robots for a command: the coordinate read back, or `NaN`. -/
def decodedTarget : Command Runtime → Target
  | .goToLocation c => ⟨readBack c.x, readBack c.y⟩
  | _ => ⟨.nan, .nan⟩

/-- A `PerformTask` is rendered as an object whose one field is a string, and a variant without
payload as a string, of which the first character is read. Neither has an `x`. -/
theorem guessTarget_commandToHuman (cmd : Command Runtime) :
    guessTarget (commandToHuman cmd) = pure (decodedTarget cmd) := by
  cases cmd with
  | goToLocation c => rfl
  | halt => rfl
  | waitForCommand => rfl
  | performTask t =>
    -- an object without a `GoToLocation`, so its one field is taken: a numeral
    have hnamed : (commandToHuman (.performTask t)).get? "GoToLocation" = some .undefined := rfl
    have hkeys : (commandToHuman (.performTask t)).keys? = some ["PerformTask"] := rfl
    have hcoords : (commandToHuman (.performTask t)).get? "PerformTask" = some (u32ToHuman t) := rfl
    have hx : (u32ToHuman t).get? "x" = some .undefined :=
      JsValue.get?_str_of_not_isDigit (c := 'x') (by decide) (by decide)
    have hy : (u32ToHuman t).get? "y" = some .undefined :=
      JsValue.get?_str_of_not_isDigit (c := 'y') (by decide) (by decide)
    simp only [guessTarget, hnamed, hkeys, orThrow, pure_bind, JsValue.truthy, Bool.false_eq_true,
      if_false, List.getElem?_cons_zero, Option.getD_some, hcoords, hx, hy]
    rfl

/-- The handler moves the target on every `CommandPulled` event, whatever the command. -/
theorem handlerUpdates_pulled (r : UInt32) (cmd : Command Runtime) (l : Option Coordinate) :
    handlerUpdates [eventRecord (.commandPulled r cmd l)] =
      [.updateEvents (.moving r.toNat (decodedTarget cmd).x (decodedTarget cmd).y),
        .setTarget (decodedTarget cmd)] := by
  have hrecord : handleRecord (eventRecord (.commandPulled r cmd l)) = (do
      let coords ← guessTarget (commandToHuman cmd)
      request (.updateEvents (.moving r.toNat coords.x coords.y))
      onMoveCommand coords.x coords.y) := rfl
  have hbatch : handleRecords [eventRecord (.commandPulled r cmd l)] = (do
      handleRecord (eventRecord (.commandPulled r cmd l))
      pure ()) := rfl
  rw [handlerUpdates, hbatch, hrecord, guessTarget_commandToHuman]
  rfl

/-- The meaning of a pulled command is preserved: a command with a coordinate moves the target to
it, which is where the click that encoded it was; a command without one leaves the target alone,
and a target that is a pair of finite numbers. -/
def MeaningPreserved (cmd : Command Runtime) (before after : Option Target) : Prop :=
  match Swarm.coordinate cmd with
  | some c => after = some ⟨.val c.x.toNat, .val c.y.toNat⟩ ∧
      ∀ x y : ℤ, encodeGoToLocation x y = some cmd → after = some ⟨.val x, .val y⟩
  | none => after = before ∧ ∀ t, after = some t → t.x.IsFinite ∧ t.y.IsFinite

theorem u32OfInt_eq_some {x : ℤ} {n : UInt32} (h : u32OfInt x = some n) : (n.toNat : ℤ) = x := by
  unfold u32OfInt at h
  split_ifs at h with hx
  obtain rfl := Option.some.inj h
  rw [UInt32.toNat_ofNat']
  omega

theorem u32OfInt_toNat (n : UInt32) : u32OfInt n.toNat = some n := by
  have hlt := n.toNat_lt
  unfold u32OfInt
  rw [if_pos ⟨by omega, by omega⟩, Int.toNat_natCast, UInt32.ofNat_toNat]

theorem encodeGoToLocation_eq_some {x y : ℤ} {c : Coordinate}
    (h : encodeGoToLocation x y = some (.goToLocation c)) :
    (c.x.toNat : ℤ) = x ∧ (c.y.toNat : ℤ) = y := by
  obtain ⟨a, ha, h⟩ := Option.bind_eq_some_iff.mp h
  obtain ⟨b, hb, h⟩ := Option.bind_eq_some_iff.mp h
  obtain rfl := Command.goToLocation.inj (Option.some.inj h)
  exact ⟨u32OfInt_eq_some ha, u32OfInt_eq_some hb⟩

/-- The target after the event `pull_next` deposits for a command. -/
theorem targetAfter_pulled (before : Option Target) (r : UInt32) (cmd : Command Runtime) :
    targetAfter before
        (handlerUpdates [eventRecord (.commandPulled r cmd (Swarm.coordinate cmd))]) =
      some (decodedTarget cmd) := by
  rw [handlerUpdates_pulled]
  rfl

theorem meaningPreserved_goToLocation (before : Option Target) (c : Coordinate) :
    MeaningPreserved (.goToLocation c) before (some (decodedTarget (.goToLocation c))) ↔
      c.x.toNat < 1000 ∧ c.y.toNat < 1000 := by
  rw [← readBack_eq_val_iff, ← readBack_eq_val_iff]
  refine ⟨?_, ?_⟩
  · rintro ⟨h, -⟩
    exact Target.mk.inj (Option.some.inj h)
  · rintro ⟨hx, hy⟩
    refine ⟨by rw [decodedTarget, hx, hy], fun x y henc => ?_⟩
    -- the click that was encoded is the coordinate itself
    obtain ⟨rfl, rfl⟩ := encodeGoToLocation_eq_some henc
    rw [decodedTarget, hx, hy]
    rfl

/-- For a command without a coordinate the handler sets a target that is no pair of finite
numbers. -/
theorem not_meaningPreserved_of_coordinate_eq_none {cmd : Command Runtime}
    (h : Swarm.coordinate cmd = none) (before : Option Target) :
    ¬ MeaningPreserved cmd before (some (decodedTarget cmd)) := by
  have hnan : decodedTarget cmd = ⟨.nan, .nan⟩ := by
    cases cmd with
    | goToLocation c => cases h
    | _ => rfl
  rw [MeaningPreserved, h, hnan]
  rintro ⟨-, hfin⟩
  exact (hfin _ rfl).1

/-- **When a command keeps its meaning on the way from the chain to the page.** For every command,
every robot and every target before it: when the handler receives the `CommandPulled` event the
pallet emits for the command, the meaning of the command is preserved exactly if it is a
`GoToLocation` of two coordinates below `1000`. -/
theorem meaning_preserved_iff (r : UInt32) (cmd : Command Runtime) (before : Option Target) :
    MeaningPreserved cmd before (targetAfter before
        (handlerUpdates [eventRecord (.commandPulled r cmd (Swarm.coordinate cmd))])) ↔
      ∃ c : Coordinate, cmd = .goToLocation c ∧ c.x.toNat < 1000 ∧ c.y.toNat < 1000 := by
  rw [targetAfter_pulled]
  cases cmd with
  | goToLocation c =>
    rw [meaningPreserved_goToLocation]
    refine ⟨?_, ?_⟩
    · exact fun h => ⟨c, rfl, h⟩
    · rintro ⟨c', hc, h⟩
      obtain rfl := Command.goToLocation.inj hc
      exact h
  | performTask t => simpa using not_meaningPreserved_of_coordinate_eq_none rfl before
  | halt => simpa using not_meaningPreserved_of_coordinate_eq_none rfl before
  | waitForCommand => simpa using not_meaningPreserved_of_coordinate_eq_none rfl before

/-- A `Halt` pulled by robot `0` sends the robots to `{ NaN, NaN }`. -/
theorem halt_meaning_not_preserved :
    ¬ ∀ (r : UInt32) (cmd : Command Runtime) (before : Option Target),
      MeaningPreserved cmd before (targetAfter before
        (handlerUpdates [eventRecord (.commandPulled r cmd (Swarm.coordinate cmd))])) := by
  intro h
  have hhalt := h 0 .halt (some ⟨.val 400, .val 300⟩)
  rw [targetAfter_pulled] at hhalt
  exact not_meaningPreserved_of_coordinate_eq_none rfl _ hhalt

end SwarmBase
