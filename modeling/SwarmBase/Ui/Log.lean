import SwarmBase.Ui.Page

/-!
# The command log

The page keeps the lines it was told to log in a state variable, and `CommandLog.tsx` shows them,
joined by line breaks, in a text area. The handlers and flows of a page append lines while earlier
ones wait for a render.

* `Page.events_run` — the lines of a run are those its steps append, in the order of the steps;
* `log_append_only` — what is shown is never taken back, reordered or shown twice.
-/

namespace SwarmBase

open Framework

/-! ### `CommandLog.tsx` -/

/-- The text area of the component. -/
structure TextArea where
  value : String
  rows : ℕ

/-- The component, given how the lines are written out. -/
def commandLog (text : LogLine → String) (log : List LogLine) : TextArea where
  value := "\n".intercalate (log.map text)
  rows := max (log.length + 3) 10

theorem commandLog_append (text : LogLine → String) (log more : List LogLine) :
    (∃ s, (commandLog text (log ++ more)).value = (commandLog text log).value ++ s) ∧
      (commandLog text log).rows ≤ (commandLog text (log ++ more)).rows := by
  refine ⟨?_, ?_⟩
  · unfold commandLog
    dsimp only
    rw [List.map_append]
    rcases eq_or_ne (log.map text) [] with hlog | hlog
    · exact ⟨_, by rw [hlog, List.nil_append, String.intercalate_nil, String.empty_append]⟩
    rcases eq_or_ne (more.map text) [] with hmore | hmore
    · exact ⟨"", by rw [hmore, List.append_nil, String.append_empty]⟩
    · -- a line break, and the lines that are new
      rw [String.intercalate_append_of_ne_nil hlog hmore, String.append_assoc]
      exact ⟨_, rfl⟩
  · show max (log.length + 3) 10 ≤ max ((log ++ more).length + 3) 10
    rw [List.length_append]
    omega

/-! ### The lines of a run -/

variable {K : Type}

/-- The lines a step appends. -/
def PageAction.lines : PageAction K → List LogLine
  | .connect => [.connected]
  | .updateEvents line => [line]
  | _ => []

variable [JsArith K] {p q : Page K} {a : PageAction K} {ls ks : List (PageAction K)}

theorem Page.events_act (ha : p.act a = some q) :
    q.events.latest = p.events.latest ++ a.lines := by
  cases a with
  | connect | updateEvents =>
    obtain rfl := Option.some.inj ha
    exact Hook.latest_update _ _
  | onMoveCommand | setSwarmType | setRobots | setLoading =>
    obtain rfl := Option.some.inj ha
    exact (List.append_nil _).symm
  | tick =>
    obtain ⟨t, -, rfl⟩ := Page.act_tick_iff.mp ha
    exact (List.append_nil _).symm
  | commit =>
    obtain rfl | rfl := Page.act_commit_cases ha
    · exact (List.append_nil _).symm
    · exact (List.append_nil _).symm
  | effects =>
    obtain rfl | rfl := Page.act_effects_cases ha
    · exact (List.append_nil _).symm
    · exact (List.append_nil _).symm

/-- **The lines of a run**, those not rendered yet included. -/
theorem Page.events_run (h : (pageSystem K).Run p ls q) :
    q.events.latest = p.events.latest ++ ls.flatMap PageAction.lines := by
  refine h.induction
    (P := fun ls q => q.events.latest = p.events.latest ++ ls.flatMap PageAction.lines)
    (List.append_nil _).symm ?_
  intro ls q a q' _ ih ha
  rw [Page.events_act ha, ih, List.append_assoc, List.flatMap_append, List.flatMap_singleton]

/-! ### What is shown -/

/-- A step leaves the lines of the last render, or renders all there are. -/
theorem Page.events_rendered_act (ha : p.act a = some q) :
    q.events.rendered = p.events.rendered ∨ q.events.rendered = p.events.latest := by
  cases a with
  | connect | onMoveCommand | setSwarmType | setRobots | setLoading | updateEvents =>
    obtain rfl := Option.some.inj ha
    exact Or.inl rfl
  | tick =>
    obtain ⟨t, -, rfl⟩ := Page.act_tick_iff.mp ha
    exact Or.inl rfl
  | commit =>
    obtain rfl | rfl := Page.act_commit_cases ha
    · exact Or.inr rfl
    · exact Or.inl rfl
  | effects =>
    obtain rfl | rfl := Page.act_effects_cases ha
    · exact Or.inl rfl
    · exact Or.inl rfl

/-- What is shown is the beginning of the log. -/
def Page.ShowsLog (p : Page K) : Prop := p.events.rendered <+: p.events.latest

theorem Page.ShowsLog.act (h : p.ShowsLog) (ha : p.act a = some q) :
    q.ShowsLog ∧ p.events.rendered <+: q.events.rendered := by
  unfold Page.ShowsLog
  rw [Page.events_act ha]
  obtain hsame | hall := Page.events_rendered_act ha
  · rw [hsame]
    exact ⟨h.trans (List.prefix_append _ _), List.prefix_rfl⟩
  · rw [hall]
    exact ⟨List.prefix_append _ _, h⟩

theorem Page.ShowsLog.run (h : p.ShowsLog) (hrun : (pageSystem K).Run p ls q) :
    q.ShowsLog ∧ p.events.rendered <+: q.events.rendered := by
  refine hrun.invariant (I := fun q => q.ShowsLog ∧ p.events.rendered <+: q.events.rendered)
    ⟨h, List.prefix_rfl⟩ ?_
  intro q a q' ⟨hq, hprefix⟩ ha
  obtain ⟨hq', hmore⟩ := hq.act ha
  exact ⟨hq', hprefix.trans hmore⟩

/-- **The log only grows.** At any two points of any run of the page, the first reached by the
steps `ls` and the second from there by `ks`: the lines shown at the first are the beginning of
those shown at the second, which are the beginning of the lines that all the steps together append,
in their order; the text shown at the first is the beginning of the text shown at the second, in no
more rows. -/
theorem log_append_only (text : LogLine → String) (hp : (pageSystem K).Run .initial ls p)
    (hq : (pageSystem K).Run p ks q) :
    p.events.rendered <+: q.events.rendered ∧
    q.events.rendered <+: (ls ++ ks).flatMap PageAction.lines ∧
    (∃ s, (commandLog text q.events.rendered).value =
      (commandLog text p.events.rendered).value ++ s) ∧
    (commandLog text p.events.rendered).rows ≤ (commandLog text q.events.rendered).rows := by
  have hinitial : (Page.initial : Page K).ShowsLog := List.prefix_rfl
  obtain ⟨hshows, hprefix⟩ := (hinitial.run hp).1.run hq
  have hlines : q.events.latest = (ls ++ ks).flatMap PageAction.lines :=
    (Page.events_run (hp.append hq)).trans (List.nil_append _)
  obtain ⟨more, hmore⟩ := hprefix
  have htext := commandLog_append text p.events.rendered more
  rw [hmore] at htext
  refine ⟨⟨more, hmore⟩, ?_, htext⟩
  rw [← hlines]
  exact hshows

/-- A line is shown, and another one after the next render. -/
theorem log_append_only_two : ∃ p q : Page ℝ, p.events.rendered = [.connected] ∧
    q.events.rendered = [.connected, .sendingToRobots] ∧
    p.events.rendered <+: q.events.rendered ∧
    q.events.rendered <+: ([.connect, .commit, .effects] ++
      [.updateEvents .sendingToRobots, .commit] : List (PageAction ℝ)).flatMap
        PageAction.lines ∧
    (∃ s, (commandLog (fun _ => "line") q.events.rendered).value =
      (commandLog (fun _ => "line") p.events.rendered).value ++ s) ∧
    (commandLog (fun _ => "line") p.events.rendered).rows ≤
      (commandLog (fun _ => "line") q.events.rendered).rows :=
  ⟨_, _, rfl, rfl, log_append_only _ (.of_runAct rfl) (.of_runAct rfl)⟩

end SwarmBase
