import Mathlib.Algebra.BigOperators.Group.List.Basic
import Mathlib.Data.List.Count

/-!
# Labelled transition systems

Components that run concurrently are described by one transition system: states, labels and a
step relation. A run is a list of labels, and grows at its end.

* `System.Run` — what a list of labels can lead to;
* `System.ofAct` — the system of a step function, whose runs `System.runAct` computes;
* `System.restrict` — the system with only those steps that meet a condition on the state before
  the step and its label;
* `System.within` — the system with only those steps after which a property holds;
* `Run.induction` — the rule for relations between the labels so far and the state;
* `Run.within_iff_restrict` — a property that holds throughout a run as a condition on its steps;
* `Run.restrict_or` — a run meets a condition at every step, or its first violation shows;
* `Run.simulate` — the rule for a system that another can follow;
* `Run.count_le` — the budget rule: steps that each use up one unit of a measure no step adds to
  are bounded in number by the measure.
-/

namespace Framework

/-- A labelled transition system. -/
structure System (State Label : Type) where
  init : State → Prop
  step : State → Label → State → Prop

namespace System

variable {State Label : Type}

/-- A list of labels leads from a state to another. -/
inductive Run (M : System State Label) : State → List Label → State → Prop where
  | nil (s : State) : Run M s [] s
  | concat {s s' s'' : State} {ls : List Label} {l : Label} :
      Run M s ls s' → M.step s' l s'' → Run M s (ls ++ [l]) s''

/-- The system without the steps that do not meet `G`. -/
def restrict (M : System State Label) (G : State → Label → Prop) : System State Label where
  init := M.init
  step s l s' := G s l ∧ M.step s l s'

/-- The system without the steps that lead out of `P`. Its runs are those along which `P` holds
after every step. -/
def within (M : System State Label) (P : State → Prop) : System State Label where
  init := M.init
  step s l s' := M.step s l s' ∧ P s'

/-- The system in which a label leads to at most one state, which a function computes. -/
def ofAct (init : State → Prop) (act : State → Label → Option State) : System State Label where
  init := init
  step s l s' := act s l = some s'

/-- The state a list of labels leads to in such a system, if every step can be made. -/
def runAct (act : State → Label → Option State) : State → List Label → Option State
  | s, [] => some s
  | s, l :: ls => (act s l).bind fun s' => runAct act s' ls

variable {M : System State Label} {s s' s'' : State} {ls ks : List Label} {l : Label}

theorem Run.append (h : M.Run s ls s') (h' : M.Run s' ks s'') : M.Run s (ls ++ ks) s'' := by
  induction h' with
  | nil => rwa [List.append_nil]
  | concat _ hstep ih =>
    rw [← List.append_assoc]
    exact ih.concat hstep

theorem Run.single (h : M.step s l s') : M.Run s [l] s' := (Run.nil s).concat h

theorem Run.cons (h : M.step s l s') (h' : M.Run s' ls s'') : M.Run s (l :: ls) s'' :=
  (Run.single h).append h'

/-- **The run rule.** -/
theorem Run.induction {P : List Label → State → Prop} (h : M.Run s ls s') (nil : P [] s)
    (step : ∀ ls s' l s'', M.Run s ls s' → P ls s' → M.step s' l s'' → P (ls ++ [l]) s'') :
    P ls s' := by
  induction h with
  | nil => exact nil
  | concat hrun hstep ih => exact step _ _ _ _ hrun ih hstep

theorem Run.of_restrict {G : State → Label → Prop} (h : (M.restrict G).Run s ls s') :
    M.Run s ls s' :=
  h.induction (P := M.Run s) (.nil s) fun _ _ _ _ _ ih hstep => ih.concat hstep.2

/-- A run all of whose labels meet the condition at any state. -/
theorem Run.to_restrict {G : State → Label → Prop} (h : M.Run s ls s')
    (hG : ∀ l ∈ ls, ∀ s, G s l) : (M.restrict G).Run s ls s' := by
  induction h with
  | nil => exact .nil s
  | concat _ hstep ih =>
    refine (ih fun l hl => hG l (List.mem_append_left _ hl)).concat ⟨?_, hstep⟩
    exact hG _ (List.mem_append_right _ (List.mem_singleton_self _)) _

theorem Run.of_runAct {init : State → Prop} {act : State → Label → Option State}
    (h : runAct act s ls = some s') : (ofAct init act).Run s ls s' := by
  -- the computation grows at its front, the run at its end
  induction ls generalizing s with
  | nil =>
    obtain rfl := Option.some.inj h
    exact .nil s
  | cons l ls ih =>
    obtain ⟨s₁, hstep, hrest⟩ := Option.bind_eq_some_iff.mp h
    exact Run.cons hstep (ih hrest)

/-- A run of a step function under a condition, continued by computation: first one step at which
the condition is checked, then steps that meet it at any state. -/
theorem Run.extend {init : State → Prop} {act : State → Label → Option State}
    {G : State → Label → Prop} {t : State} (h : ((ofAct init act).restrict G).Run s ls s')
    (l : Label) (hG : G s' l) (hl : act s' l = some s'') (ks : List Label)
    (hks : runAct act s'' ks = some t) (hfree : ∀ k ∈ ks, ∀ s, G s k) :
    ((ofAct init act).restrict G).Run s (ls ++ [l] ++ ks) t :=
  (h.concat ⟨hG, hl⟩).append ((of_runAct hks).to_restrict hfree)

/-- What every step preserves, every run preserves. -/
theorem Run.invariant {I : State → Prop} (h : M.Run s ls s') (hs : I s)
    (step : ∀ s l s', I s → M.step s l s' → I s') : I s' :=
  h.induction (P := fun _ s' => I s') hs fun _ _ _ _ _ ih hstep => step _ _ _ ih hstep

/-- If the condition decides for each step whether it leads out of `P`, the runs along which `P`
holds are those whose steps meet the condition. -/
theorem Run.within_iff_restrict {G : State → Label → Prop} {I P : State → Prop} (hs : I s ∧ P s)
    (invariant : ∀ s l s', I s → M.step s l s' → I s')
    (step : ∀ s l s', I s → P s → M.step s l s' → (P s' ↔ G s l)) :
    (M.within P).Run s ls s' ↔ (M.restrict G).Run s ls s' := by
  refine ⟨?_, ?_⟩
  · intro h
    have hrun : (I s' ∧ P s') ∧ (M.restrict G).Run s ls s' := by
      refine h.induction (P := fun ls s' => (I s' ∧ P s') ∧ (M.restrict G).Run s ls s')
        ⟨hs, .nil s⟩ ?_
      intro ls s' l s'' _ ⟨⟨hI, hP⟩, hrun⟩ ⟨hstep, hP'⟩
      have hG : G s' l := (step s' l s'' hI hP hstep).mp hP'
      exact ⟨⟨invariant s' l s'' hI hstep, hP'⟩, hrun.concat ⟨hG, hstep⟩⟩
    exact hrun.2
  · intro h
    have hrun : (I s' ∧ P s') ∧ (M.within P).Run s ls s' := by
      refine h.induction (P := fun ls s' => (I s' ∧ P s') ∧ (M.within P).Run s ls s')
        ⟨hs, .nil s⟩ ?_
      intro ls s' l s'' _ ⟨⟨hI, hP⟩, hrun⟩ ⟨hG, hstep⟩
      have hP' : P s'' := (step s' l s'' hI hP hstep).mpr hG
      exact ⟨⟨invariant s' l s'' hI hstep, hP'⟩, hrun.concat ⟨hstep, hP'⟩⟩
    exact hrun.2

/-- **The first violation.** If a step that does not meet the condition leads to `B`, and no step
leads out of it, a run without such a step is all that avoids `B`. The invariant `I` may be used
throughout. -/
theorem Run.restrict_or {G : State → Label → Prop} {I B : State → Prop} (h : M.Run s ls s')
    (hs : I s) (step : ∀ s l s', I s → M.step s l s' → I s')
    (violation : ∀ s l s', I s → M.step s l s' → ¬ G s l → B s')
    (keep : ∀ s l s', I s → M.step s l s' → B s → B s') :
    (M.restrict G).Run s ls s' ∨ B s' := by
  have hrun : I s' ∧ ((M.restrict G).Run s ls s' ∨ B s') := by
    refine h.induction (P := fun ls s' => I s' ∧ ((M.restrict G).Run s ls s' ∨ B s'))
      ⟨hs, Or.inl (.nil s)⟩ ?_
    intro ls s' l s'' _ ⟨hI, hor⟩ hstep
    refine ⟨step s' l s'' hI hstep, ?_⟩
    obtain hfree | hB := hor
    · by_cases hG : G s' l
      · exact Or.inl (hfree.concat ⟨hG, hstep⟩)
      · exact Or.inr (violation s' l s'' hI hstep hG)
    · exact Or.inr (keep s' l s'' hI hstep hB)
  exact hrun.2

/-- **The simulation rule.** If the other system can follow every step, with any number of steps of
its own, it can follow every run. -/
theorem Run.simulate {State' Label' : Type} {N : System State' Label'} {R : State → State' → Prop}
    {t : State'} (h : M.Run s ls s') (ht : R s t)
    (step : ∀ s l s' t, R s t → M.step s l s' → ∃ ks t', N.Run t ks t' ∧ R s' t') :
    ∃ ks t', N.Run t ks t' ∧ R s' t' := by
  refine h.induction (P := fun _ s' => ∃ ks t', N.Run t ks t' ∧ R s' t') ⟨[], t, .nil t, ht⟩ ?_
  intro ls s' l s'' _ ⟨ks, t', hrun, hR⟩ hstep
  obtain ⟨ks', t'', hrun', hR'⟩ := step s' l s'' t' hR hstep
  exact ⟨ks ++ ks', t'', hrun.append hrun', hR'⟩

/-- **The budget rule.** If every step with a counted label lowers `budget` and no step raises
it, a run has at most as many counted labels as the budget it starts with. -/
theorem Run.count_le {I : State → Prop} {counted : Label → Bool} (budget : State → ℕ)
    (step : ∀ s l s', I s → M.step s l s' →
      I s' ∧ budget s' + (if counted l then 1 else 0) ≤ budget s)
    (h : M.Run s ls s') (hs : I s) : ls.countP counted ≤ budget s := by
  -- what is left of the budget and what was used up never exceed what there was
  have hrun : I s' ∧ budget s' + ls.countP counted ≤ budget s := by
    refine h.induction (P := fun ls s' => I s' ∧ budget s' + ls.countP counted ≤ budget s)
      ⟨hs, Nat.le_refl _⟩ ?_
    intro ls s' l s'' _ ⟨hI, hle⟩ hstep
    obtain ⟨hI', hle'⟩ := step s' l s'' hI hstep
    refine ⟨hI', ?_⟩
    rw [List.countP_append, List.countP_singleton]
    omega
  omega

end System

end Framework
