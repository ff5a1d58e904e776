import Mathlib.Data.List.Induction

/-!
# Runs of fallible calls

A component is driven by a list of calls. Each call is a program `exec c` in `EStateM`, so it
returns or fails, and in both cases it leaves a state: nothing is rolled back by the monad, and
whether a failing call leaves the state alone is a property of the component (`Exec.Atomic`),
not of the model.

* `Exec.run` — the state after a list of calls;
* `Exec.reply` — what one call returns, the state forgotten;
* `Exec.accepted` — the calls of a run that returned, in order;
* `Exec.run_induction` — the rule every history invariant below goes through: it holds of the
  empty history, and each call, returning or failing, carries it over.
-/

namespace Framework

variable {σ ε κ α : Type}

namespace Exec

variable (exec : κ → EStateM ε σ α)

/-- The state a call leaves behind, whether it returned or failed. -/
def next (s : σ) (c : κ) : σ :=
  match exec c s with
  | .ok _ s' => s'
  | .error _ s' => s'

/-- What a call returns, with the state forgotten. -/
def reply (s : σ) (c : κ) : Except ε α :=
  match exec c s with
  | .ok a _ => .ok a
  | .error e _ => .error e

/-- The state after a list of calls, made one after another. -/
def run (s : σ) (cs : List κ) : σ := cs.foldl (next exec) s

/-- The calls of a run that returned, in order. -/
def accepted (s : σ) : List κ → List κ
  | [] => []
  | c :: cs =>
    match exec c s with
    | .ok _ s' => c :: accepted s' cs
    | .error _ s' => accepted s' cs

/-- Two calls commute at a state, as far as `view` shows of the state and `own` of a call's own
result: in both orders they end in the same view, and each has the same result. -/
structure CommutesAt {β ρ : Type} (view : σ → β) (own : σ → κ → ρ) (s : σ) (c d : κ) : Prop where
  view_eq : view (next exec (next exec s c) d) = view (next exec (next exec s d) c)
  fst_eq : own s c = own (next exec s d) c
  snd_eq : own (next exec s c) d = own s d

/-- A failing call leaves the state as it was. -/
def Atomic : Prop :=
  ∀ c s e s', exec c s = .error e s' → s' = s

variable {exec}

theorem next_ok {s s' : σ} {c : κ} {a : α} (h : exec c s = .ok a s') : next exec s c = s' := by
  simp only [next, h]

theorem next_error {s s' : σ} {c : κ} {e : ε} (h : exec c s = .error e s') :
    next exec s c = s' := by
  simp only [next, h]

theorem CommutesAt.symm {β ρ : Type} {view : σ → β} {own : σ → κ → ρ} {s : σ} {c d : κ}
    (h : CommutesAt exec view own s c d) : CommutesAt exec view own s d c :=
  ⟨h.view_eq.symm, h.snd_eq.symm, h.fst_eq.symm⟩

theorem reply_ok {s s' : σ} {c : κ} {a : α} (h : exec c s = .ok a s') :
    reply exec s c = .ok a := by
  simp only [reply, h]

theorem reply_error {s s' : σ} {c : κ} {e : ε} (h : exec c s = .error e s') :
    reply exec s c = .error e := by
  simp only [reply, h]

theorem run_append (s : σ) (cs ds : List κ) :
    run exec s (cs ++ ds) = run exec (run exec s cs) ds :=
  List.foldl_append

theorem run_concat (s : σ) (cs : List κ) (c : κ) :
    run exec s (cs ++ [c]) = next exec (run exec s cs) c :=
  run_append s cs [c]

@[simp] theorem accepted_nil (s : σ) : accepted exec s [] = [] := rfl

theorem accepted_append (s : σ) (cs ds : List κ) :
    accepted exec s (cs ++ ds) = accepted exec s cs ++ accepted exec (run exec s cs) ds := by
  -- induction on the calls in front: the first one leaves a state whether it returns or not, and
  -- the rest of the run is made from there
  induction cs generalizing s with
  | nil => rfl
  | cons c cs ih =>
    have hrun : run exec s (c :: cs) = run exec (next exec s c) cs := rfl
    rw [List.cons_append, hrun]
    cases h : exec c s with
    | ok a s' => simp only [accepted, h, next_ok h, ih, List.cons_append]
    | error e s' => simp only [accepted, h, next_error h, ih]

theorem accepted_concat_ok {s s' : σ} {cs : List κ} {c : κ} {a : α}
    (h : exec c (run exec s cs) = .ok a s') :
    accepted exec s (cs ++ [c]) = accepted exec s cs ++ [c] := by
  rw [accepted_append]
  simp only [accepted, h]

theorem accepted_concat_error {s s' : σ} {cs : List κ} {c : κ} {e : ε}
    (h : exec c (run exec s cs) = .error e s') :
    accepted exec s (cs ++ [c]) = accepted exec s cs := by
  rw [accepted_append]
  simp only [accepted, h, List.append_nil]

/-- An accepted call of a run sits at some position of it, and returned there. -/
theorem mem_accepted {s : σ} {cs : List κ} {c : κ} (h : c ∈ accepted exec s cs) :
    ∃ pre post a s', cs = pre ++ c :: post ∧ exec c (run exec s pre) = .ok a s' := by
  induction cs generalizing s with
  | nil => cases h
  | cons d ds ih =>
    -- the position is shifted by one for a call of the tail
    have hlater : ∀ s', next exec s d = s' → c ∈ accepted exec s' ds →
        ∃ pre post a s'', d :: ds = pre ++ c :: post ∧ exec c (run exec s pre) = .ok a s'' := by
      rintro s' rfl hmem
      obtain ⟨pre, post, a, s'', rfl, hret⟩ := ih hmem
      exact ⟨d :: pre, post, a, s'', rfl, hret⟩
    cases hd : exec d s with
    | ok a s' =>
      simp only [accepted, hd, List.mem_cons] at h
      rcases h with rfl | hmem
      · exact ⟨[], ds, a, s', rfl, hd⟩
      · exact hlater s' (next_ok hd) hmem
    | error e s' =>
      simp only [accepted, hd] at h
      exact hlater s' (next_error hd) h

/-- **The history rule.** A relation between the calls made so far and the state they led to
holds along every run, if it holds of the empty history and every call carries it over. A call
that returns and a call that fails are separate obligations. -/
theorem run_induction {P : List κ → σ → Prop} {s : σ} (nil : P [] s)
    (ok : ∀ cs c a s', P cs (run exec s cs) → exec c (run exec s cs) = .ok a s' →
      P (cs ++ [c]) s')
    (error : ∀ cs c e s', P cs (run exec s cs) → exec c (run exec s cs) = .error e s' →
      P (cs ++ [c]) s') :
    ∀ cs, P cs (run exec s cs) := by
  intro cs
  -- from the back: the last call is the one that carries `P` over
  induction cs using List.reverseRecOn with
  | nil => exact nil
  | append_singleton cs c ih =>
    rw [run_concat]
    cases h : exec c (run exec s cs) with
    | ok a s' => rw [next_ok h]; exact ok cs c a s' ih h
    | error e s' => rw [next_error h]; exact error cs c e s' ih h

end Exec

end Framework
