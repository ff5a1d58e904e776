/-!
# State hooks

A `useState` variable: the value of the last render and the updaters queued since. A handler reads
the value of the render it was made in; the updaters it queues run in order, on the value the
earlier ones left, when the next render takes them up (`Hook.flush`).
-/

namespace Framework

/-- A state variable of a component. -/
structure Hook (α : Type) where
  rendered : α
  queue : List (α → α)

namespace Hook

variable {α : Type}

def init (a : α) : Hook α := ⟨a, []⟩

/-- The value the next render will see. -/
def latest (h : Hook α) : α := h.queue.foldl (fun a f => f a) h.rendered

/-- The setter, given an updater. -/
def update (f : α → α) (h : Hook α) : Hook α := { h with queue := h.queue ++ [f] }

/-- The setter, given a value. -/
def set (a : α) (h : Hook α) : Hook α := h.update fun _ => a

/-- A render takes up the queued updaters. -/
def flush (h : Hook α) : Hook α := ⟨h.latest, []⟩

@[simp] theorem rendered_update (f : α → α) (h : Hook α) : (h.update f).rendered = h.rendered := rfl

@[simp] theorem latest_update (f : α → α) (h : Hook α) : (h.update f).latest = f h.latest := by
  simp only [latest, update, List.foldl_append, List.foldl_cons, List.foldl_nil]

end Hook

end Framework
