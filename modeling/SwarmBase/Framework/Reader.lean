import Mathlib.Data.List.Infix

/-!
# Readers of an append-only log

A reader starts somewhere in a log and is given the items from there on, in batches, while the log
grows at its end. What it has read is a segment of the log (`Reader.read_infix`), which more items
in the log do not change (`Reader.read_append`), and of two readers that have come equally far, the
one that started later has read a suffix of what the other has (`Reader.read_suffix`).
-/

namespace Framework

/-- A reader of a log: the items from position `start` on and before `upTo` have been read. -/
structure Reader where
  start : ℕ
  upTo : ℕ
  start_le : start ≤ upTo

namespace Reader

variable {α : Type} {r q : Reader} {log : List α}

/-- A reader that has read nothing yet. -/
def fresh (n : ℕ) : Reader := ⟨n, n, Nat.le_refl n⟩

/-- The reader is given the next `k` items. -/
def advance (r : Reader) (k : ℕ) : Reader :=
  ⟨r.start, r.upTo + k, Nat.le_add_right_of_le r.start_le⟩

/-- What has been read. -/
def read (r : Reader) (log : List α) : List α := (log.take r.upTo).drop r.start

@[simp] theorem read_fresh (n : ℕ) (log : List α) : (fresh n).read log = [] :=
  List.drop_eq_nil_of_le (List.length_take_le n log)

theorem read_append (h : r.upTo ≤ log.length) (more : List α) :
    r.read (log ++ more) = r.read log := by
  unfold read
  rw [List.take_append_of_le_length h]

/-- A batch of items that come next in the log is read after what was read before. -/
theorem read_advance {batch : List α} (h : r.upTo ≤ log.length)
    (hbatch : batch <+: log.drop r.upTo) :
    (r.advance batch.length).read log = r.read log ++ batch := by
  have hlen : (log.take r.upTo).length = r.upTo := List.length_take_of_le h
  have htake : (log.drop r.upTo).take batch.length = batch :=
    (List.prefix_iff_eq_take.mp hbatch).symm
  calc ((log.take (r.upTo + batch.length)).drop r.start)
      = (log.take r.upTo ++ batch).drop r.start := by rw [List.take_add, htake]
    _ = (log.take r.upTo).drop r.start ++ batch :=
        List.drop_append_of_le_length (by rw [hlen]; exact r.start_le)

theorem upTo_advance_le {batch : List α} (h : r.upTo ≤ log.length)
    (hbatch : batch <+: log.drop r.upTo) : (r.advance batch.length).upTo ≤ log.length := by
  have hle := hbatch.length_le
  rw [List.length_drop] at hle
  show r.upTo + batch.length ≤ log.length
  omega

/-- What has been read is a segment of the log. -/
theorem read_infix (r : Reader) (log : List α) : r.read log <:+: log :=
  (List.drop_suffix _ _).isInfix.trans (List.take_prefix _ _).isInfix

/-- Of two readers that have come equally far, the later one has read the end of what the other
has. -/
theorem read_suffix (h : r.upTo = q.upTo) (hstart : r.start ≤ q.start) (log : List α) :
    q.read log <:+ r.read log := by
  unfold read
  rw [← h, ← Nat.add_sub_of_le hstart, ← List.drop_drop]
  exact List.drop_suffix _ _

end Reader

end Framework
