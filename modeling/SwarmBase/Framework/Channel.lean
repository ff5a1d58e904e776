import Mathlib.Data.List.Basic

/-!
# First-in-first-out channels by their history

`Channel α M` is a bounded channel seen from outside: everything ever sent through it, and how
many items have been received. What is in flight and what has been delivered are read off these
two, so an item cannot be lost, duplicated or overtaken, and the bound `M` on what is in flight
is a field. An implementation is a first-in-first-out queue if its content is `Channel.inFlight`
of the channel its history describes.
-/

namespace Framework

/-- A bounded first-in-first-out channel: the items sent so far, in order, and the number of
them that has been received. -/
structure Channel (α : Type) (M : ℕ) where
  sent : List α
  received : ℕ
  received_le : received ≤ sent.length
  /-- At most `M` items are in flight. -/
  inFlight_le : sent.length ≤ received + M

namespace Channel

variable {α : Type} {M : ℕ}

/-- The items received, in the order they were sent. -/
def delivered (ch : Channel α M) : List α := ch.sent.take ch.received

/-- The items sent and not yet received, oldest first. -/
def inFlight (ch : Channel α M) : List α := ch.sent.drop ch.received

/-- Send one item through a channel that is not full. -/
def send (ch : Channel α M) (a : α) (h : ch.sent.length < ch.received + M) : Channel α M where
  sent := ch.sent ++ [a]
  received := ch.received
  received_le := by simpa using Nat.le_succ_of_le ch.received_le
  inFlight_le := by rw [List.length_append, List.length_singleton]; omega

/-- Receive the oldest item of a channel that is not empty. -/
def receive (ch : Channel α M) (h : ch.received < ch.sent.length) : Channel α M where
  sent := ch.sent
  received := ch.received + 1
  received_le := h
  inFlight_le := by have := ch.inFlight_le; omega

/-- Nothing is lost, duplicated or reordered. -/
theorem delivered_append_inFlight (ch : Channel α M) : ch.delivered ++ ch.inFlight = ch.sent :=
  List.take_append_drop _ _

theorem length_inFlight (ch : Channel α M) :
    ch.inFlight.length + ch.received = ch.sent.length := by
  rw [inFlight, List.length_drop]
  exact Nat.sub_add_cancel ch.received_le

@[simp] theorem inFlight_send (ch : Channel α M) (a : α)
    (h : ch.sent.length < ch.received + M) :
    (ch.send a h).inFlight = ch.inFlight ++ [a] :=
  List.drop_append_of_le_length ch.received_le

@[simp] theorem delivered_send (ch : Channel α M) (a : α)
    (h : ch.sent.length < ch.received + M) :
    (ch.send a h).delivered = ch.delivered :=
  List.take_append_of_le_length ch.received_le

/-- Receiving takes the head of what is in flight. -/
theorem inFlight_receive {ch : Channel α M} {a : α} {rest : List α}
    (h : ch.received < ch.sent.length) (hfl : ch.inFlight = a :: rest) :
    (ch.receive h).inFlight = rest := by
  change ch.sent.drop (ch.received + 1) = rest
  rw [← List.tail_drop, show ch.sent.drop ch.received = a :: rest from hfl]
  rfl

/-- The item received is appended to what was delivered. -/
theorem delivered_receive {ch : Channel α M} {a : α} {rest : List α}
    (h : ch.received < ch.sent.length) (hfl : ch.inFlight = a :: rest) :
    (ch.receive h).delivered = ch.delivered ++ [a] := by
  -- the item at position `received` is the head of what is in flight
  have hget : ch.sent[ch.received] = a := by
    have hd := List.drop_eq_getElem_cons h
    rw [show ch.sent.drop ch.received = a :: rest from hfl] at hd
    exact (List.cons.inj hd).1.symm
  change ch.sent.take (ch.received + 1) = ch.sent.take ch.received ++ [a]
  rw [List.take_add_one, List.getElem?_eq_getElem h, hget]
  rfl

end Channel

end Framework
