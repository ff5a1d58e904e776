import SwarmBase.Framework.Channel
import SwarmBase.Pallet.Runtime
import Mathlib.Data.Finset.Dedup
import Mathlib.Data.Finset.Option

/-!
# Histories of the swarm pallet

What a run of calls, signed or not and succeeding or not, leaves in storage, in terms of the
events it emitted and of the calls it was made of.

The abstract view is a first-in-first-out channel. From any storage `s₀` on, the queue is what is
in flight in a channel that starts with the commands of `s₀`, is sent a command by every
`CommandEnqueued` and delivers one by every `CommandPulled` (`Carries`, `run_carries`). The bound
`MaxGlobalCommands` is the capacity of the channel.

* `fifo_delivery` — commands are delivered in the order they were enqueued, to registered robots;
* `call_outcome` — what the next call does, in terms of the calls accepted so far;
* `events_determine_storage_iff` — two runs with one event log end in one storage exactly if
  they registered the same robots: the queue can be read off the events, the registry cannot,
  since `register_robot` emits none.
-/

namespace SwarmBase.Swarm

open Framework

variable {T : Config}

/-- The commands of the `CommandEnqueued` events of a log. -/
def enqueuedCommands (events : List (Event T)) : List (Command T) :=
  events.filterMap fun
    | .commandEnqueued c => some c
    | .commandPulled _ _ _ => none

/-- The commands of the `CommandPulled` events of a log. -/
def pulledCommands (events : List (Event T)) : List (Command T) :=
  events.filterMap fun
    | .commandEnqueued _ => none
    | .commandPulled _ c _ => some c

/-- The storage after a run of calls from empty storage. -/
def run (xs : List (Extrinsic T)) : Storage T := Exec.run dispatch (Storage.empty T) xs

/-- The calls of a run from empty storage that succeeded. -/
def accepted (xs : List (Extrinsic T)) : List (Extrinsic T) :=
  Exec.accepted dispatch (Storage.empty T) xs

def Call.isEnqueue : Call T → Bool
  | .enqueueCommand _ => true
  | _ => false

def Call.isPull : Call T → Bool
  | .pullNext _ => true
  | _ => false

@[simp] theorem enqueuedCommands_append (es fs : List (Event T)) :
    enqueuedCommands (es ++ fs) = enqueuedCommands es ++ enqueuedCommands fs :=
  List.filterMap_append

@[simp] theorem pulledCommands_append (es fs : List (Event T)) :
    pulledCommands (es ++ fs) = pulledCommands es ++ pulledCommands fs :=
  List.filterMap_append

@[simp] theorem enqueuedCommands_enqueued (c : Command T) :
    enqueuedCommands [.commandEnqueued c] = [c] := rfl

@[simp] theorem enqueuedCommands_pulled (r : T.RobotId) (c : Command T) (l : Option T.Location) :
    enqueuedCommands [.commandPulled r c l] = [] := rfl

@[simp] theorem pulledCommands_enqueued (c : Command T) :
    pulledCommands [.commandEnqueued c] = [] := rfl

@[simp] theorem pulledCommands_pulled (r : T.RobotId) (c : Command T) (l : Option T.Location) :
    pulledCommands [.commandPulled r c l] = [c] := rfl

/-! ### The queue as a channel -/

/-- From `s₀` to `s` the queue has behaved as the channel `ch`: the channel started with the
queue of `s₀`, was sent the commands enqueued since, has delivered the commands pulled since,
and holds the queue of `s` in flight. -/
structure Carries (s₀ s : Storage T) (ch : Channel (Command T) T.MaxGlobalCommands)
    (log : List (Event T)) : Prop where
  events_eq : s.events = s₀.events ++ log
  sent_eq : ch.sent = s₀.globalCommandQueue.toList ++ enqueuedCommands log
  delivered_eq : ch.delivered = pulledCommands log
  inFlight_eq : ch.inFlight = s.globalCommandQueue.toList

/-- The channel a storage starts with. -/
def Storage.channel (s : Storage T) : Channel (Command T) T.MaxGlobalCommands where
  sent := s.globalCommandQueue.toList
  received := 0
  received_le := Nat.zero_le _
  inFlight_le := by rw [Nat.zero_add]; exact s.globalCommandQueue.length_le

theorem Carries.refl (s : Storage T) : Carries s s s.channel [] where
  events_eq := (List.append_nil _).symm
  sent_eq := (List.append_nil _).symm
  delivered_eq := List.take_zero
  inFlight_eq := rfl

/-- **Refinement, one call.** An accepted call is a step of the channel or leaves it alone. -/
theorem Carries.accepts {s₀ s s' : Storage T} {ch : Channel (Command T) T.MaxGlobalCommands}
    {log : List (Event T)} {call : Call T} (hc : Carries s₀ s ch log) (h : Accepts s call s') :
    ∃ ch' log', Carries s₀ s' ch' (log ++ log') := by
  -- the queue is what is in flight, so its bound is a bound on what can still be sent
  have hlen := ch.length_inFlight
  rw [hc.inFlight_eq] at hlen
  cases h with
  | registerRobot r =>
    -- neither the queue nor the log changes
    refine ⟨ch, [], ?_⟩
    rw [List.append_nil]
    exact ⟨hc.events_eq, hc.sent_eq, hc.delivered_eq, hc.inFlight_eq⟩
  | enqueueCommand c q hq =>
    -- the bound on `q` is room for one more command
    have hroom : ch.sent.length < ch.received + T.MaxGlobalCommands := by
      have hle := q.length_le
      rw [hq, List.length_append, List.length_singleton] at hle
      omega
    refine ⟨ch.send c hroom, [.commandEnqueued c], ?_, ?_, ?_, ?_⟩
    · rw [← List.append_assoc, ← hc.events_eq]
    · change ch.sent ++ [c] = _
      rw [hc.sent_eq, enqueuedCommands_append, enqueuedCommands_enqueued, List.append_assoc]
    · rw [Channel.delivered_send, hc.delivered_eq, pulledCommands_append,
        pulledCommands_enqueued, List.append_nil]
    · rw [Channel.inFlight_send, hc.inFlight_eq]
      exact hq.symm
  | pullNext r c q hr hq =>
    -- the front of the queue is the oldest item in flight
    have hfl : ch.inFlight = c :: q.toList := hc.inFlight_eq.trans hq
    have hsome : ch.received < ch.sent.length := by
      rw [hq, List.length_cons] at hlen
      omega
    refine ⟨ch.receive hsome, [.commandPulled r c (coordinate c)], ?_, ?_, ?_, ?_⟩
    · rw [← List.append_assoc, ← hc.events_eq]
    · change ch.sent = _
      rw [hc.sent_eq, enqueuedCommands_append, enqueuedCommands_pulled, List.append_nil]
    · rw [Channel.delivered_receive hsome hfl, hc.delivered_eq, pulledCommands_append,
        pulledCommands_pulled]
    · exact Channel.inFlight_receive hsome hfl

/-- **Refinement, whole runs.** Along every run, from any storage, the queue is a channel. -/
theorem run_carries (s₀ : Storage T) (xs : List (Extrinsic T)) :
    ∃ ch log, Carries s₀ (Exec.run dispatch s₀ xs) ch log := by
  refine Exec.run_induction (P := fun _ s => ∃ ch log, Carries s₀ s ch log) ?_ ?_ ?_ xs
  · exact ⟨_, _, Carries.refl s₀⟩
  · rintro ys x ⟨⟩ s' ⟨ch, log, hc⟩ hx
    obtain ⟨who, -, hacc⟩ := dispatch_ok_iff.mp hx
    obtain ⟨ch', log', hc'⟩ := hc.accepts hacc
    exact ⟨ch', _, hc'⟩
  · -- a call that fails leaves the storage, and with it the channel, alone
    intro ys x e s' hc hx
    obtain ⟨rfl, -⟩ := dispatch_error_iff.mp hx
    exact hc

/-- What was pulled since `s₀`, followed by the queue, is the queue of `s₀` followed by what was
enqueued since. -/
theorem run_fifo (s₀ : Storage T) (xs : List (Extrinsic T)) :
    ∃ log, (Exec.run dispatch s₀ xs).events = s₀.events ++ log ∧
      pulledCommands log ++ (Exec.run dispatch s₀ xs).globalCommandQueue.toList =
        s₀.globalCommandQueue.toList ++ enqueuedCommands log := by
  obtain ⟨ch, log, hc⟩ := run_carries s₀ xs
  refine ⟨log, hc.events_eq, ?_⟩
  rw [← hc.sent_eq, ← hc.delivered_eq, ← hc.inFlight_eq]
  exact ch.delivered_append_inFlight

/-! ### The history invariant -/

/-- A `CommandPulled` event at position `i` of the log is sound after the calls `xs`: its robot
was registered by a call that succeeded before the event was emitted, and its coordinate is that
of its command. -/
def PulledSound (xs : List (Extrinsic T)) (i : ℕ) : Event T → Prop
  | .commandEnqueued _ => True
  | .commandPulled r c l =>
    l = coordinate c ∧ ∃ pre x post s', xs = pre ++ x :: post ∧ x.call = .registerRobot r ∧
      dispatch x (run pre) = .ok () s' ∧ (run pre).events.length ≤ i

/-- The history invariant: the registry and the event log in terms of the calls made. -/
structure History (xs : List (Extrinsic T)) (s : Storage T) : Prop where
  registered_iff : ∀ r, r ∈ s.registeredRobots ↔ ∃ x ∈ accepted xs, x.call = .registerRobot r
  enqueues : (enqueuedCommands s.events).length = (accepted xs).countP (·.call.isEnqueue)
  pulls : (pulledCommands s.events).length = (accepted xs).countP (·.call.isPull)
  pulledSound : ∀ i e, s.events[i]? = some e → PulledSound xs i e

/-- The log only grows along a run. -/
theorem run_events_length_le (xs ys : List (Extrinsic T)) :
    (run xs).events.length ≤ (run (xs ++ ys)).events.length := by
  obtain ⟨log, hlog, -⟩ := run_fifo (run xs) ys
  have hrun : run (xs ++ ys) = Exec.run dispatch (run xs) ys := Exec.run_append _ _ _
  rw [hrun, hlog, List.length_append]
  exact Nat.le_add_right _ _

theorem PulledSound.concat {xs : List (Extrinsic T)} {i : ℕ} {e : Event T}
    (h : PulledSound xs i e) (x : Extrinsic T) : PulledSound (xs ++ [x]) i e := by
  cases e with
  | commandEnqueued c => trivial
  | commandPulled r c l =>
    obtain ⟨hl, pre, y, post, s', rfl, hy, hok, hi⟩ := h
    exact ⟨hl, pre, y, post ++ [x], s', by simp, hy, hok, hi⟩

/-- A registered robot was registered by a call that succeeded earlier in the run. -/
theorem exists_registration {xs : List (Extrinsic T)} {r : T.RobotId}
    (h : ∃ x ∈ accepted xs, x.call = .registerRobot r) :
    ∃ pre x post s', xs = pre ++ x :: post ∧ x.call = .registerRobot r ∧
      dispatch x (run pre) = .ok () s' ∧ (run pre).events.length ≤ (run xs).events.length := by
  obtain ⟨x, hx, hcall⟩ := h
  obtain ⟨pre, post, ⟨⟩, s', rfl, hok⟩ := Exec.mem_accepted hx
  exact ⟨pre, x, post, s', rfl, hcall, hok, run_events_length_le pre (x :: post)⟩

theorem History.nil : History [] (Storage.empty T) where
  registered_iff r := by simp [Storage.empty, accepted]
  enqueues := rfl
  pulls := rfl
  pulledSound i e h := by simp [Storage.empty] at h

/-- **Invariant preservation, accepted calls.** -/
theorem History.ok {xs : List (Extrinsic T)} {x : Extrinsic T} {s' : Storage T}
    (hI : History xs (run xs)) (hx : dispatch x (run xs) = .ok () s') :
    History (xs ++ [x]) s' := by
  have hacc : accepted (xs ++ [x]) = accepted xs ++ [x] := Exec.accepted_concat_ok hx
  obtain ⟨who, -, hcall⟩ := dispatch_ok_iff.mp hx
  obtain ⟨o, call⟩ := x
  -- an event of the old log keeps its position, the new one comes last
  have hsound : ∀ (new : Event T), PulledSound (xs ++ [⟨o, call⟩]) (run xs).events.length new →
      ∀ i e, ((run xs).events ++ [new])[i]? = some e → PulledSound (xs ++ [⟨o, call⟩]) i e := by
    intro new hnew i e hi
    rcases Nat.lt_trichotomy i (run xs).events.length with hlt | rfl | hgt
    · rw [List.getElem?_append_left hlt] at hi
      exact (hI.pulledSound i e hi).concat _
    · rw [List.getElem?_concat_length] at hi
      obtain rfl := Option.some.inj hi
      exact hnew
    · rw [List.getElem?_eq_none (by simp; omega)] at hi
      cases hi
  cases hcall with
  | registerRobot r =>
    refine ⟨?_, ?_, ?_, fun i e hi => (hI.pulledSound i e hi).concat _⟩
    · intro r'
      simp only [Finset.mem_insert, hI.registered_iff, hacc, List.mem_append, List.mem_singleton,
        or_and_right, exists_or, exists_eq_left, Call.registerRobot.injEq]
      exact ⟨fun h => h.symm.imp id Eq.symm, fun h => h.symm.imp Eq.symm id⟩
    · simp [hacc, hI.enqueues, Call.isEnqueue]
    · simp [hacc, hI.pulls, Call.isPull]
  | enqueueCommand c q hq =>
    refine ⟨?_, ?_, ?_, hsound _ trivial⟩
    · intro r'
      simp [hacc, hI.registered_iff]
    · simp [hacc, hI.enqueues, Call.isEnqueue]
    · simp [hacc, hI.pulls, Call.isPull]
  | pullNext r c q hr hq =>
    refine ⟨?_, ?_, ?_, hsound _ ⟨rfl, ?_⟩⟩
    · intro r'
      simp [hacc, hI.registered_iff]
    · simp [hacc, hI.enqueues, Call.isEnqueue]
    · simp [hacc, hI.pulls, Call.isPull]
    · -- the robot is registered, so a call before this one registered it
      obtain ⟨pre, y, post, s', hxs, hy, hok, hi⟩ :=
        exists_registration ((hI.registered_iff r).mp hr)
      exact ⟨pre, y, post ++ [⟨o, .pullNext r⟩], s', by rw [hxs]; simp, hy, hok, hi⟩

/-- **Invariant preservation, refused calls.** -/
theorem History.error {xs : List (Extrinsic T)} {x : Extrinsic T} {s' : Storage T}
    {e : DispatchError Error} (hI : History xs (run xs))
    (hx : dispatch x (run xs) = .error e s') : History (xs ++ [x]) s' := by
  have hacc : accepted (xs ++ [x]) = accepted xs := Exec.accepted_concat_error hx
  obtain ⟨rfl, -⟩ := dispatch_error_iff.mp hx
  exact ⟨by rw [hacc]; exact hI.registered_iff, by rw [hacc]; exact hI.enqueues,
    by rw [hacc]; exact hI.pulls, fun i e hi => (hI.pulledSound i e hi).concat x⟩

theorem run_history (xs : List (Extrinsic T)) : History xs (run xs) :=
  Exec.run_induction History.nil (fun _ _ _ _ hI hx => hI.ok hx)
    (fun _ _ _ _ hI hx => hI.error hx) xs

/-- From empty storage: the commands pulled, then the queue, are the commands enqueued. -/
theorem pulled_append_queue (xs : List (Extrinsic T)) :
    pulledCommands (run xs).events ++ (run xs).globalCommandQueue.toList =
      enqueuedCommands (run xs).events := by
  obtain ⟨log, hlog, hfifo⟩ := run_fifo (Storage.empty T) xs
  -- the log starts empty, so what was emitted since is all of it
  have hev : (run xs).events = log := hlog.trans (List.nil_append log)
  calc pulledCommands (run xs).events ++ (run xs).globalCommandQueue.toList
      = pulledCommands log ++ (run xs).globalCommandQueue.toList := by rw [hev]
    _ = enqueuedCommands log := hfifo.trans (List.nil_append _)
    _ = enqueuedCommands (run xs).events := by rw [hev]

/-- The queue holds as many commands as accepted enqueues exceed accepted pulls. -/
theorem accepted_counts (xs : List (Extrinsic T)) :
    (accepted xs).countP (·.call.isPull) + (run xs).globalCommandQueue.toList.length =
      (accepted xs).countP (·.call.isEnqueue) := by
  -- one event for each call that was accepted
  calc (accepted xs).countP (·.call.isPull) + (run xs).globalCommandQueue.toList.length
      = (pulledCommands (run xs).events ++ (run xs).globalCommandQueue.toList).length := by
        rw [List.length_append, (run_history xs).pulls]
    _ = (enqueuedCommands (run xs).events).length := by rw [pulled_append_queue]
    _ = (accepted xs).countP (·.call.isEnqueue) := (run_history xs).enqueues

/-! ### The three history theorems -/

/-- **FIFO delivery.** For every bound and every run of calls from empty storage, hence at every
point of a run: the commands pulled so far followed by the queue are the commands enqueued so
far, the queue is within its bound, and every `CommandPulled` event names a robot that an earlier
successful `register_robot` registered and carries a coordinate exactly if its command is a
`GoToLocation`, namely the location it goes to. -/
theorem fifo_delivery (T : Config) (xs : List (Extrinsic T)) :
    pulledCommands (run xs).events ++ (run xs).globalCommandQueue.toList =
        enqueuedCommands (run xs).events ∧
      (run xs).globalCommandQueue.toList.length ≤ T.MaxGlobalCommands ∧
      ∀ i r c l, (run xs).events[i]? = some (.commandPulled r c l) →
        (∃ pre x post s', xs = pre ++ x :: post ∧ x.call = .registerRobot r ∧
          dispatch x (run pre) = .ok () s' ∧ (run pre).events.length ≤ i) ∧
        ∀ loc, l = some loc ↔ c = .goToLocation loc := by
  refine ⟨pulled_append_queue xs, (run xs).globalCommandQueue.length_le, ?_⟩
  intro i r c l hi
  obtain ⟨rfl, hreg⟩ := (run_history xs).pulledSound i _ hi
  refine ⟨hreg, fun loc => ?_⟩
  cases c <;> simp [coordinate]

/-- The `enqueue_command` calls of a run that succeeded. -/
def enqueues (xs : List (Extrinsic T)) : ℕ := (accepted xs).countP (·.call.isEnqueue)

/-- The `pull_next` calls of a run that succeeded. -/
def pulls (xs : List (Extrinsic T)) : ℕ := (accepted xs).countP (·.call.isPull)

/-- Some `register_robot` call of the run for this robot succeeded. -/
def WasRegistered (xs : List (Extrinsic T)) (r : T.RobotId) : Prop :=
  ∃ x ∈ accepted xs, x.call = .registerRobot r

theorem refuses_enqueueCommand_iff (xs : List (Extrinsic T)) (who : T.AccountId) (c : Command T)
    (e : DispatchError Error) :
    Refuses (run xs) ⟨.signed who, .enqueueCommand c⟩ e ↔
      e = .pallet .queueFull ∧ enqueues xs = pulls xs + T.MaxGlobalCommands := by
  have hcount : pulls xs + (run xs).globalCommandQueue.toList.length = enqueues xs :=
    accepted_counts xs
  refine ⟨?_, ?_⟩
  · intro h
    cases h with
    | badOrigin _ ho => exact absurd rfl (ho who)
    | queueFull _ _ hfull => exact ⟨rfl, by omega⟩
  · rintro ⟨rfl, h⟩
    exact .queueFull who c (by omega)

theorem refuses_pullNext_iff (xs : List (Extrinsic T)) (who : T.AccountId) (r : T.RobotId)
    (e : DispatchError Error) :
    Refuses (run xs) ⟨.signed who, .pullNext r⟩ e ↔
      (e = .pallet .invalidRobotId ∧ ¬ WasRegistered xs r) ∨
      (e = .pallet .queueEmpty ∧ WasRegistered xs r ∧ enqueues xs = pulls xs) := by
  have hcount : pulls xs + (run xs).globalCommandQueue.toList.length = enqueues xs :=
    accepted_counts xs
  have hreg : r ∈ (run xs).registeredRobots ↔ WasRegistered xs r :=
    (run_history xs).registered_iff r
  refine ⟨?_, ?_⟩
  · intro h
    -- the source checks the robot before it looks at the queue
    cases h with
    | badOrigin _ ho => exact absurd rfl (ho who)
    | invalidRobotId _ _ hr => exact Or.inl ⟨rfl, mt hreg.mpr hr⟩
    | queueEmpty _ _ hr hempty =>
      rw [hempty, List.length_nil] at hcount
      exact Or.inr ⟨rfl, hreg.mp hr, hcount.symm⟩
  · rintro (⟨rfl, hr⟩ | ⟨rfl, hr, heq⟩)
    · exact .invalidRobotId who r (mt hreg.mp hr)
    · exact .queueEmpty who r (hreg.mpr hr) (List.length_eq_zero_iff.mp (by omega))

/-- No call touches the queue but `enqueue_command` and `pull_next`. -/
theorem next_queue_of_registerRobot (s : Storage T) {x : Extrinsic T} {r : T.RobotId}
    (h : x.call = .registerRobot r) :
    (Exec.next dispatch s x).globalCommandQueue = s.globalCommandQueue := by
  rcases dispatch_cases s x with ⟨who, s', -, hacc, hx⟩ | ⟨e, -, hx⟩
  · rw [Exec.next_ok hx]
    rw [h] at hacc
    cases hacc
    rfl
  · rw [Exec.next_error hx]

/-- No call touches the registry but `register_robot`. -/
theorem next_registered_of_not_registerRobot (s : Storage T) {x : Extrinsic T}
    (h : ∀ r, x.call ≠ .registerRobot r) :
    (Exec.next dispatch s x).registeredRobots = s.registeredRobots := by
  rcases dispatch_cases s x with ⟨who, s', -, hacc, hx⟩ | ⟨e, -, hx⟩
  · rw [Exec.next_ok hx]
    obtain ⟨o, call⟩ := x
    cases hacc with
    | registerRobot r => exact absurd rfl (h r)
    | enqueueCommand => rfl
    | pullNext => rfl
  · rw [Exec.next_error hx]

/-- **The outcome of every call, from the history of the run.** After any run from empty storage,
the next call: an unsigned one fails with `BadOrigin`; a signed `register_robot` succeeds; a
signed `enqueue_command` fails with `QueueFull` exactly if the accepted enqueues exceed the
accepted pulls by the bound; a signed `pull_next` fails with `InvalidRobotId` exactly if no
`register_robot` of its robot was accepted, else with `QueueEmpty` exactly if the two counts are
equal. Every other signed call succeeds, a failing call leaves registry, queue and log as they
were, and no call touches the storage item of the others. -/
theorem call_outcome (T : Config) (xs : List (Extrinsic T)) :
    (∀ x : Extrinsic T, (∀ who, x.origin ≠ .signed who) →
      Exec.reply dispatch (run xs) x = .error .badOrigin) ∧
    (∀ who r, Exec.reply dispatch (run xs) ⟨.signed who, .registerRobot r⟩ = .ok ()) ∧
    (∀ who c, let reply := Exec.reply dispatch (run xs) ⟨.signed who, .enqueueCommand c⟩
      (reply = .error (.pallet .queueFull) ↔ enqueues xs = pulls xs + T.MaxGlobalCommands) ∧
      (reply = .ok () ↔ enqueues xs ≠ pulls xs + T.MaxGlobalCommands)) ∧
    (∀ who r, let reply := Exec.reply dispatch (run xs) ⟨.signed who, .pullNext r⟩
      (reply = .error (.pallet .invalidRobotId) ↔ ¬ WasRegistered xs r) ∧
      (reply = .error (.pallet .queueEmpty) ↔ WasRegistered xs r ∧ enqueues xs = pulls xs) ∧
      (reply = .ok () ↔ WasRegistered xs r ∧ enqueues xs ≠ pulls xs)) ∧
    (∀ x e s', dispatch x (run xs) = .error e s' → s' = run xs) ∧
    (∀ (x : Extrinsic T) r, x.call = .registerRobot r →
      (Exec.next dispatch (run xs) x).globalCommandQueue = (run xs).globalCommandQueue) ∧
    (∀ x : Extrinsic T, (∀ r, x.call ≠ .registerRobot r) →
      (Exec.next dispatch (run xs) x).registeredRobots = (run xs).registeredRobots) := by
  refine ⟨?_, ?_, ?_, ?_, ?_, ?_, ?_⟩
  · intro x hx
    exact reply_eq_error_iff.mpr (.badOrigin x hx)
  · intro who r
    exact reply_eq_ok_iff.mpr fun e => (Accepts.registerRobot _ r).not_refuses
  · intro who c
    refine ⟨?_, ?_⟩
    · rw [reply_eq_error_iff, refuses_enqueueCommand_iff]
      exact and_iff_right rfl
    · simp only [reply_eq_ok_iff, refuses_enqueueCommand_iff, not_and, forall_eq, ne_eq]
  · intro who r
    refine ⟨?_, ?_, ?_⟩
    · simp [reply_eq_error_iff, refuses_pullNext_iff]
    · simp [reply_eq_error_iff, refuses_pullNext_iff]
    · -- neither of the two refusals applies
      simp only [reply_eq_ok_iff, refuses_pullNext_iff, not_or, forall_and, not_and, forall_eq]
      refine ⟨?_, ?_⟩
      · rintro ⟨hreg, hne⟩
        exact ⟨not_not.mp hreg, hne (not_not.mp hreg)⟩
      · rintro ⟨hreg, hne⟩
        exact ⟨not_not.mpr hreg, fun _ => hne⟩
  · exact fun x e s' hx => dispatch_atomic x (run xs) e s' hx
  · intro x r hx
    exact next_queue_of_registerRobot (run xs) hx
  · intro x hx
    exact next_registered_of_not_registerRobot (run xs) hx

/-- The robot a signed `register_robot` call names. -/
def registration : Extrinsic T → Option T.RobotId
  | ⟨.signed _, .registerRobot r⟩ => some r
  | _ => none

/-- The robots the signed `register_robot` calls of a run name. -/
def registrations (xs : List (Extrinsic T)) : Finset T.RobotId :=
  (xs.filterMap registration).toFinset

theorem registrations_concat (xs : List (Extrinsic T)) (x : Extrinsic T) :
    registrations (xs ++ [x]) = registrations xs ∪ (registration x).toFinset := by
  cases hx : registration x <;> simp [registrations, List.filterMap_append, hx]

theorem Accepts.registered_eq {s s' : Storage T} {x : Extrinsic T} {who : T.AccountId}
    (ho : x.origin = .signed who) (h : Accepts s x.call s') :
    s'.registeredRobots = s.registeredRobots ∪ (registration x).toFinset := by
  obtain ⟨o, call⟩ := x
  obtain rfl : o = .signed who := ho
  cases h with
  | registerRobot r =>
    rw [registration, Option.toFinset_some, Finset.union_comm]
    exact Finset.insert_eq r s.registeredRobots
  | enqueueCommand => simp [registration]
  | pullNext => simp [registration]

theorem Refuses.registration_eq_none {s : Storage T} {x : Extrinsic T}
    {e : DispatchError Error} (h : Refuses s x e) : registration x = none := by
  cases h with
  | badOrigin _ ho =>
    obtain ⟨o, call⟩ := x
    cases o with
    | signed who => exact absurd rfl (ho who)
    | root => rfl
    | none => rfl
  | queueFull => rfl
  | invalidRobotId => rfl
  | queueEmpty => rfl

/-- The registry holds what the signed registrations name, whatever else the run did. -/
theorem run_registered (xs : List (Extrinsic T)) :
    (run xs).registeredRobots = registrations xs := by
  refine Exec.run_induction
    (P := fun ys (s : Storage T) => s.registeredRobots = registrations ys) rfl ?_ ?_ xs
  · rintro ys x ⟨⟩ s' ih hx
    obtain ⟨who, ho, hacc⟩ := dispatch_ok_iff.mp hx
    rw [registrations_concat, hacc.registered_eq ho, ih]
  · intro ys x e s' ih hx
    obtain ⟨rfl, href⟩ := dispatch_error_iff.mp hx
    rw [registrations_concat, href.registration_eq_none, ih, Option.toFinset_none,
      Finset.union_empty]

/-- **When the event log determines the storage.** Two runs from empty storage that emitted the
same events have the same registry and the same queue exactly if their signed `register_robot`
calls name the same robots. The queue is always determined: it is what the log says was enqueued
and not pulled. The registry is not, since `register_robot` deposits no event. -/
theorem events_determine_storage_iff (T : Config) (xs ys : List (Extrinsic T))
    (h : (run xs).events = (run ys).events) :
    ((run xs).registeredRobots = (run ys).registeredRobots ∧
      (run xs).globalCommandQueue = (run ys).globalCommandQueue) ↔
        registrations xs = registrations ys := by
  have hqueue : (run xs).globalCommandQueue = (run ys).globalCommandQueue := by
    -- both queues complete the same pulled commands to the same enqueued ones
    have hx := pulled_append_queue xs
    rw [h, ← pulled_append_queue ys] at hx
    exact BoundedVec.ext (List.append_cancel_left hx)
  rw [run_registered, run_registered]
  exact and_iff_left hqueue

/-- Two runs with one log of two events. The second registers robot `0` once more and makes calls
that are refused: a registration and a command that are not signed, and two pulls, by a robot that
is not registered and from an empty queue. -/
theorem events_determine_storage_iff_refused :
    let xs : List (Extrinsic Runtime) := [⟨.signed 1, .registerRobot 0⟩,
      ⟨.signed 1, .enqueueCommand (.goToLocation ⟨10, 20⟩)⟩, ⟨.signed 1, .pullNext 0⟩]
    let ys : List (Extrinsic Runtime) := [⟨.root, .registerRobot 5⟩, ⟨.signed 2, .registerRobot 0⟩,
      ⟨.signed 2, .pullNext 0⟩, ⟨.none, .enqueueCommand .halt⟩, ⟨.signed 3, .registerRobot 0⟩,
      ⟨.signed 3, .enqueueCommand (.goToLocation ⟨10, 20⟩)⟩, ⟨.signed 3, .pullNext 5⟩,
      ⟨.signed 2, .pullNext 0⟩]
    (run xs).events = [.commandEnqueued (.goToLocation ⟨10, 20⟩),
        .commandPulled 0 (.goToLocation ⟨10, 20⟩) (some ⟨10, 20⟩)] ∧
      (run ys).events = (run xs).events ∧ registrations ys = registrations xs ∧
      (((run ys).registeredRobots = (run xs).registeredRobots ∧
          (run ys).globalCommandQueue = (run xs).globalCommandQueue) ↔
        registrations ys = registrations xs) :=
  ⟨by decide, by decide, by decide, events_determine_storage_iff Runtime _ _ (by decide)⟩

/-- A registration leaves no trace in the log: after it, and before any call, the log is empty,
and the registries differ. -/
theorem events_do_not_determine_storage :
    ¬ ∀ xs ys : List (Extrinsic Runtime), (run xs).events = (run ys).events →
      (run xs).registeredRobots = (run ys).registeredRobots ∧
        (run xs).globalCommandQueue = (run ys).globalCommandQueue := by
  intro h
  have hreg := (h [] [⟨.signed 0, .registerRobot 0⟩] rfl).1
  exact absurd hreg (by decide)

end SwarmBase.Swarm
