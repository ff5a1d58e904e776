import SwarmBase.Framework.Execution
import SwarmBase.Framework.System

/-!
# Replaying and reordering runs of calls

The calls of a component that return are the steps of a transition system (`Exec.returns`). If a
failing call writes nothing, every run of calls does what its accepted calls alone do
(`Exec.Atomic.accepted_run`), so a run can be replayed from them.

* `System.Run.movers_first` — labels that can change places with any label before them can be
  made first;
* `Exec.Renames` — two components that do the same to states and calls that correspond.
-/

namespace Framework

/-! ### Labels that can be made earlier -/

namespace System

variable {State Label : Type} {M : System State Label} {s s' s'' : State} {ls : List Label}
  {l : Label} {p : Label → Bool}

/-- A label that `p` selects can be made before any label that it does not select. -/
def MovesLeft (M : System State Label) (p : Label → Bool) : Prop :=
  ∀ s s₁ s₂ a b, p a = false → p b = true → M.step s a s₁ → M.step s₁ b s₂ →
    ∃ s₁', M.step s b s₁' ∧ M.step s₁' a s₂

/-- A selected label at the end of a run without any is made first. -/
theorem Run.move_left (hM : M.MovesLeft p) (h : M.Run s ls s') (hls : ∀ a ∈ ls, p a = false)
    (hl : p l = true) (hstep : M.step s' l s'') : ∃ t, M.step s l t ∧ M.Run t ls s'' := by
  induction h generalizing s'' with
  | nil => exact ⟨s'', hstep, .nil s''⟩
  | @concat s₁ s₂ ls a _ ha ih =>
    -- past the last label, and then past those before it
    have hpa : p a = false := hls a (List.mem_append_right _ (List.mem_singleton_self a))
    obtain ⟨s₁', hfirst, hlast⟩ := hM s₁ s₂ s'' a l hpa hl ha hstep
    obtain ⟨t, ht, hrun⟩ := ih (fun b hb => hls b (List.mem_append_left _ hb)) hfirst
    exact ⟨t, ht, hrun.concat hlast⟩

/-- **A run can be cut anywhere.** -/
theorem Run.exists_of_append {ks : List Label} (h : M.Run s (ls ++ ks) s'') :
    ∃ s', M.Run s ls s' ∧ M.Run s' ks s'' := by
  induction ks using List.reverseRecOn generalizing s'' with
  | nil =>
    rw [List.append_nil] at h
    exact ⟨s'', h, .nil s''⟩
  | append_singleton ks l ih =>
    rw [← List.append_assoc] at h
    generalize hall : ls ++ ks ++ [l] = all at h
    cases h with
    | nil => exact absurd hall (by simp)
    | concat hrun hstep =>
      obtain ⟨rfl, hlast⟩ := List.append_inj' hall rfl
      obtain rfl := List.singleton_injective hlast
      obtain ⟨s', hls, hks⟩ := ih hrun
      exact ⟨s', hls, hks.concat hstep⟩

theorem Run.eq_of_nil (h : M.Run s ls s') (hls : ls = []) : s' = s := by
  cases h with
  | nil => rfl
  | concat => exact absurd hls (by simp)

theorem Run.exists_of_cons (h : M.Run s (l :: ls) s'') : ∃ s', M.step s l s' ∧ M.Run s' ls s'' := by
  obtain ⟨s', hfirst, hrun⟩ : ∃ s', M.Run s [l] s' ∧ M.Run s' ls s'' := h.exists_of_append
  generalize hsingle : [l] = all at hfirst
  cases hfirst with
  | nil => cases hsingle
  | @concat s₁ _ ks k hks hstep =>
    have happend : [] ++ [l] = ks ++ [k] := hsingle
    obtain ⟨hnil, hlast⟩ := List.append_inj' happend rfl
    obtain rfl := hks.eq_of_nil hnil.symm
    obtain rfl := List.singleton_injective hlast
    exact ⟨s', hstep, hrun⟩

/-- **The selected labels first.** Every run can be reordered to make the selected labels before
all others, either kind in the order it had. -/
theorem Run.movers_first (hM : M.MovesLeft p) (h : M.Run s ls s') :
    M.Run s (ls.filter p ++ ls.filter fun l => !p l) s' := by
  refine h.induction (P := fun ls s' => M.Run s (ls.filter p ++ ls.filter fun l => !p l) s')
    (.nil s) ?_
  intro ls s' l s'' _ ih hstep
  rw [List.filter_append, List.filter_append]
  cases hl : p l with
  | false =>
    have hkeep : [l].filter (fun l => !p l) = [l] := List.filter_cons_of_pos (by simp [hl])
    have hdrop : [l].filter p = [] := List.filter_cons_of_neg (by simp [hl])
    rw [hkeep, hdrop, List.append_nil, ← List.append_assoc]
    exact ih.concat hstep
  | true =>
    have hkeep : [l].filter p = [l] := List.filter_cons_of_pos hl
    have hdrop : [l].filter (fun l => !p l) = [] := List.filter_cons_of_neg (by simp [hl])
    rw [hkeep, hdrop, List.append_nil]
    -- past the labels that are not selected
    obtain ⟨t, hselected, hothers⟩ := ih.exists_of_append
    have hnot : ∀ a ∈ ls.filter (fun l => !p l), p a = false := by
      intro a ha
      simpa using (List.mem_filter.mp ha).2
    obtain ⟨t', hmoved, hrest⟩ := hothers.move_left hM hnot hl hstep
    exact (hselected.concat hmoved).append hrest

end System

/-! ### Runs of calls that return -/

namespace Exec

variable {σ ε κ α : Type} {exec : κ → EStateM ε σ α} {s s' : σ} {c : κ} {cs ds : List κ}

/-- The calls that return, as steps. -/
def returns (exec : κ → EStateM ε σ α) : System σ κ where
  init _ := True
  step s c s' := ∃ a, exec c s = .ok a s'

/-- The runs in which every call returns. -/
theorem accepted_of_run (h : (returns exec).Run s cs s') :
    accepted exec s cs = cs ∧ run exec s cs = s' := by
  refine h.induction (P := fun cs s' => accepted exec s cs = cs ∧ run exec s cs = s') ⟨rfl, rfl⟩ ?_
  rintro cs s' c s'' - ⟨hacc, rfl⟩ ⟨a, hc⟩
  refine ⟨?_, ?_⟩
  · rw [accepted_concat_ok hc, hacc]
  · rw [run_concat, next_ok hc]

/-- **Replay.** What a run of calls does, its accepted calls do without the others. -/
theorem Atomic.accepted_run (hexec : Atomic exec) (s : σ) (cs : List κ) :
    (returns exec).Run s (accepted exec s cs) (run exec s cs) := by
  refine run_induction (P := fun cs s' => (returns exec).Run s (accepted exec s cs) s') (.nil s)
    ?_ ?_ cs
  · intro cs c a s' ih hc
    rw [accepted_concat_ok hc]
    exact ih.concat ⟨a, hc⟩
  · -- a call that fails is left out, and wrote nothing
    intro cs c e s' ih hc
    rw [accepted_concat_error hc, hexec c _ e s' hc]
    exact ih

/-! ### Components that do the same -/

/-- Calls and states of one component stand for calls and states of another: whether and with what
result a call returns, and the state it leaves. -/
def Renames {σ' κ' : Type} (exec : κ → EStateM ε σ α) (exec' : κ' → EStateM ε σ' α) (f : κ → κ')
    (g : σ → σ') : Prop :=
  ∀ c s, exec' (f c) (g s) = match exec c s with
    | .ok a s' => .ok a (g s')
    | .error e s' => .error e (g s')

section Renames

variable {σ' κ' : Type} {exec' : κ' → EStateM ε σ' α} {f : κ → κ'} {g : σ → σ'}

theorem Renames.next_eq (h : Renames exec exec' f g) (s : σ) (c : κ) :
    next exec' (g s) (f c) = g (next exec s c) := by
  unfold next
  rw [h c s]
  cases exec c s <;> rfl

theorem Renames.reply_eq (h : Renames exec exec' f g) (s : σ) (c : κ) :
    reply exec' (g s) (f c) = reply exec s c := by
  unfold reply
  rw [h c s]
  cases exec c s <;> rfl

theorem Renames.run_eq (h : Renames exec exec' f g) (s : σ) (cs : List κ) :
    run exec' (g s) (cs.map f) = g (run exec s cs) := by
  induction cs using List.reverseRecOn with
  | nil => rfl
  | append_singleton cs c ih =>
    rw [List.map_append, List.map_singleton, run_concat, run_concat, ih, h.next_eq]

end Renames

end Exec

end Framework
