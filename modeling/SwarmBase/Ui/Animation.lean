import SwarmBase.Ui.Page

/-!
# How long the animation runs

The interval callback counts its frames and clears the interval at the 120th. The counter belongs
to the effect, and `robots` is a dependency of the effect: the commit after a tick changes it, and
the effect is set up anew with a counter of zero.

A change from outside the animation is a registration, a new target or a change of `swarmType`.
It takes effect when the effect runs with it (`Page.FindsOutsideChange`); until then the old timer
is in force.

* `animation_stops` — if the effect is set up anew for outside changes only, the callback moves
  the robots at most 120 times between two of them;
* `animation_never_stops` — with a list of two or more robots, or of none, the page can go on
  ticking for ever without any outside change.
-/

namespace SwarmBase

open Framework

variable {K : Type}

def PageAction.isTick : PageAction K → Bool
  | .tick => true
  | _ => false

/-- Whether a step asks for a change from outside the animation. -/
def PageAction.isOutside : PageAction K → Bool
  | .setRobots | .onMoveCommand _ | .setSwarmType _ => true
  | _ => false

/-- What of the dependencies changes from outside the animation only. -/
def Deps.outside (d : Deps) : ℕ × ℕ × SwarmType := (d.appends, d.target, d.swarmType)

namespace Page

/-- The effects of the last commit will find an outside change. -/
def FindsOutsideChange (p : Page K) : Prop := p.deps.outside ≠ p.seen.outside

/-- Every outside change asked for has taken effect. -/
structure UpToDate (p : Page K) : Prop where
  rendered : p.deps.outside = p.seen.outside
  appends : p.robots.latest.appends = p.robots.rendered.appends
  target : p.target.latest.sets = p.target.rendered.sets
  swarmType : p.swarmType.latest = p.swarmType.rendered

/-- The number of times the timer can still call back. -/
def framesLeft (p : Page K) : ℕ := p.timer.elim 0 fun t => 120 - t.frame

end Page

/-- The condition on the steps of a run: the effect is set up anew for an outside change only. -/
def ResetsForOutside (p : Page K) (a : PageAction K) : Prop :=
  a = .effects → p.deps ≠ p.seen → p.FindsOutsideChange

/-- No outside change takes effect in the step. -/
def NoOutsideChange (p : Page K) (a : PageAction K) : Prop := a = .effects → ¬ p.FindsOutsideChange

section Timer

variable [JsArith K] {p q : Page K} {a : PageAction K}

/-! ### One step -/

/-- A step other than a tick leaves the timer, clears it, or, if it is the effects of a commit
that changed a dependency, sets up a new one. -/
theorem timer_of_not_tick (ha : p.act a = some q) (htick : a ≠ .tick) :
    q.timer = p.timer ∨ q.timer = none ∨
      (a = .effects ∧ p.deps ≠ p.seen ∧ ∃ t, q.timer = some t ∧ t.frame = 0) := by
  cases a with
  | connect | onMoveCommand | setSwarmType | setRobots | setLoading | updateEvents =>
    obtain rfl := Option.some.inj ha
    exact Or.inl rfl
  | tick => exact absurd rfl htick
  | commit =>
    obtain rfl | rfl := Page.act_commit_cases ha
    · exact Or.inl rfl
    · exact Or.inr (Or.inl rfl)
  | effects =>
    obtain rfl | rfl := Page.act_effects_cases ha
    · unfold Page.runEffects
      dsimp only
      split_ifs with hdeps
      · exact Or.inl rfl
      · cases htarget : p.target.rendered.value with
        | none => exact Or.inr (Or.inl rfl)
        | some t => exact Or.inr (Or.inr ⟨rfl, hdeps, _, rfl, rfl⟩)
    · exact Or.inr (Or.inl rfl)

/-- A tick uses up one of the frames that are left. -/
theorem framesLeft_tick {t : Timer K} (ht : p.timer = some t) (hframe : t.frame < 120) :
    (p.tick t).framesLeft + 1 = p.framesLeft ∧
      ∀ t', (p.tick t).timer = some t' → t'.frame < 120 := by
  unfold Page.framesLeft Page.tick
  rw [ht]
  dsimp only
  split_ifs with hlast
  · refine ⟨?_, nofun⟩
    -- the last frame
    simp only [Option.elim_none, Option.elim_some]
    omega
  · refine ⟨?_, ?_⟩
    · simp only [Option.elim_some]
      omega
    · rintro t' ⟨⟩
      dsimp only
      omega

/-- **The budget of one step.** The frames left go down with every tick, and only go up when the
effect is set up anew. -/
theorem framesLeft_act (ha : p.act a = some q) (hframe : ∀ t, p.timer = some t → t.frame < 120)
    (hreset : a = .effects → p.deps = p.seen) :
    (∀ t, q.timer = some t → t.frame < 120) ∧
      q.framesLeft + (if a.isTick then 1 else 0) ≤ p.framesLeft := by
  -- a tick, or a step that leaves the timer or clears it
  by_cases htick : a = .tick
  · obtain rfl := htick
    obtain ⟨t, ht, rfl⟩ := Page.act_tick_iff.mp ha
    obtain ⟨hleft, hframe'⟩ := framesLeft_tick ht (hframe t ht)
    exact ⟨hframe', hleft.le⟩
  · have hcount : (if a.isTick then 1 else 0) = 0 := by
      cases a <;> first | rfl | exact absurd rfl htick
    rw [hcount, Nat.add_zero]
    rcases timer_of_not_tick ha htick with h | h | ⟨heff, hdeps, -⟩
    · unfold Page.framesLeft
      rw [h]
      exact ⟨hframe, Nat.le_refl _⟩
    · unfold Page.framesLeft
      rw [h]
      exact ⟨nofun, Nat.zero_le _⟩
    · exact absurd (hreset heff) hdeps

/-- The counter of a running timer is below 120, whatever happens. -/
theorem frame_lt_of_run {ls : List (PageAction K)} (h : (pageSystem K).Run Page.initial ls p) :
    ∀ t, p.timer = some t → t.frame < 120 := by
  refine h.invariant (I := fun p => ∀ t, p.timer = some t → t.frame < 120) nofun ?_
  intro p a q hframe ha
  by_cases htick : a = .tick
  · obtain rfl := htick
    obtain ⟨t, ht, rfl⟩ := Page.act_tick_iff.mp ha
    exact (framesLeft_tick ht (hframe t ht)).2
  · rcases timer_of_not_tick ha htick with h | h | ⟨-, -, t, h, hzero⟩
    · rw [h]
      exact hframe
    · rw [h]
      exact nofun
    · -- a new timer counts from zero
      rw [h]
      rintro t' ⟨⟩
      omega

omit [JsArith K] in
theorem framesLeft_le (p : Page K) : p.framesLeft ≤ 120 := by
  unfold Page.framesLeft
  cases p.timer with
  | none => exact Nat.zero_le _
  | some t => exact Nat.sub_le _ _

/-! ### Between two outside changes -/

/-- The page stays up to date as long as no outside change is asked for. -/
theorem Page.UpToDate.act (h : p.UpToDate) (ha : p.act a = some q) (hout : a.isOutside = false) :
    q.UpToDate := by
  cases a with
  | setRobots | onMoveCommand | setSwarmType => cases hout
  | connect | setLoading | updateEvents =>
    obtain rfl := Option.some.inj ha
    exact ⟨h.rendered, h.appends, h.target, h.swarmType⟩
  | tick =>
    obtain ⟨t, -, rfl⟩ := Page.act_tick_iff.mp ha
    refine ⟨h.rendered, ?_, h.target, h.swarmType⟩
    -- an updater that moves the robots appends none
    rw [Page.latest_tick]
    exact h.appends
  | commit =>
    obtain rfl | rfl := Page.act_commit_cases ha
    · -- what is rendered now is what was asked for, which was rendered before
      have hsame : p.render.deps.outside = p.deps.outside := by
        change (p.robots.latest.appends, p.target.latest.sets, p.swarmType.latest) = _
        rw [h.appends, h.target, h.swarmType]
        rfl
      exact ⟨hsame.trans h.rendered, rfl, rfl, rfl⟩
    · exact ⟨h.rendered, h.appends, h.target, h.swarmType⟩
  | effects =>
    obtain rfl | rfl := Page.act_effects_cases ha
    · exact ⟨rfl, h.appends, h.target, h.swarmType⟩
    · exact ⟨rfl, h.appends, h.target, h.swarmType⟩

/-- In a page that is up to date, no outside change takes effect until the next one is asked
for. -/
theorem Page.UpToDate.run {M : System (Page K) (PageAction K)} {ks : List (PageAction K)}
    (hM : ∀ p a q, M.step p a q → p.act a = some q) (h : p.UpToDate)
    (hks : ∀ a ∈ ks, a.isOutside = false) (hrun : M.Run p ks q) :
    (M.restrict NoOutsideChange).Run p ks q ∧ q.UpToDate := by
  induction hrun with
  | nil => exact ⟨.nil p, h⟩
  | concat _ hstep ih =>
    obtain ⟨hrun', hup⟩ := ih fun a ha => hks a (List.mem_append_left _ ha)
    have hout := hks _ (List.mem_append_right _ (List.mem_singleton_self _))
    -- what was rendered last is what the effects have seen
    exact ⟨hrun'.concat ⟨fun _ hfinds => hfinds hup.rendered, hstep⟩, hup.act (hM _ _ _ hstep) hout⟩

/-- **The animation stops, if only outside changes set it up anew.** At every type of numbers, for
every robot list and both algorithms, in every run in which the animation effect is set up anew
for outside changes only: while no outside change takes effect, the interval callback moves the
robots at most 120 times. In particular this is so from when the page has taken up all outside
changes until the next one is asked for. One tick that is committed, and whose effects run before
an outside change is rendered, takes a run out of the condition: the effects find a new robots
array. -/
theorem animation_stops {ls : List (PageAction K)}
    (h : ((pageSystem K).restrict ResetsForOutside).Run Page.initial ls p) :
    (∀ ks q, (((pageSystem K).restrict ResetsForOutside).restrict NoOutsideChange).Run p ks q →
      ks.countP PageAction.isTick ≤ 120) ∧
    (∀ ks q, ((pageSystem K).restrict ResetsForOutside).Run p ks q → p.UpToDate →
      (∀ a ∈ ks, a.isOutside = false) → ks.countP PageAction.isTick ≤ 120) := by
  have hbound : ∀ ks q,
      (((pageSystem K).restrict ResetsForOutside).restrict NoOutsideChange).Run p ks q →
      ks.countP PageAction.isTick ≤ 120 := by
    intro ks q hrun
    -- the budget of ticks is the frames that are left
    refine (hrun.count_le (I := fun p => ∀ t, p.timer = some t → t.frame < 120) Page.framesLeft ?_
      (frame_lt_of_run h.of_restrict)).trans (framesLeft_le p)
    rintro p a q hframe ⟨hnone, hreset, ha⟩
    refine framesLeft_act ha hframe fun heff => ?_
    -- a changed dependency would be an outside change, of which there is none
    by_contra hdeps
    exact hnone heff (hreset heff hdeps)
  refine ⟨hbound, fun ks q hrun hup hks => hbound ks q ?_⟩
  have hstep : ∀ p a q, ((pageSystem K).restrict ResetsForOutside).step p a q → p.act a = some q :=
    fun _ _ _ h => h.2
  exact (hup.run hstep hks hrun).1

/-! ### Without an end -/

/-- The page at rest between two frames of a running animation of a list that is not of length
one. -/
structure Animating (p : Page K) : Prop where
  timer : ∃ t, p.timer = some t
  target : ∃ v, p.target.latest.value = some v
  robots : ∃ rs, p.robots.latest.value = some (.list rs) ∧ rs.length ≠ 1
  ref : ∃ rs, p.robotsRef = some (.list rs) ∧ rs.length ≠ 1
  seen : p.seen.frames = p.robots.latest.frames
  upToDate : p.UpToDate
  effectsPending : p.effectsPending = false
  mounted : p.mounted = true

/-- The updater of a tick on a list that is not of length one returns a list of its length. -/
theorem updater_length (t : Timer K) {ref : List (Robot K)} (href : ref.length ≠ 1)
    (rs : List (Robot K)) :
    ∃ rs', Page.updater t (some (.list ref)) (.list rs) = some (.list rs') ∧
      rs'.length = rs.length := by
  have hlen : (some (RobotsState.list ref)).bind RobotsState.length? ≠ some 1 :=
    fun h => href (Option.some.inj h)
  obtain ⟨move, -, heq⟩ := Page.updater_eq_map t hlen rs
  exact ⟨rs.map move, heq, List.length_map move⟩

/-- One frame: a tick, the commit of its update, and the effects of the commit, which set the
timer up anew. -/
theorem Animating.frame (h : Animating p) :
    ∃ q, (pageSystem K).Run p [.tick, .commit, .effects] q ∧ Animating q := by
  obtain ⟨t, ht⟩ := h.timer
  obtain ⟨v, hv⟩ := h.target
  obtain ⟨rs, hrs, hlen⟩ := h.robots
  obtain ⟨ref, href, hreflen⟩ := h.ref
  obtain ⟨rs', hmove, hlen'⟩ := updater_length t hreflen rs
  -- the tick
  have htick : (p.tick t).robots.latest.value = some (.list rs') := by
    rw [Page.latest_tick, href]
    change p.robots.latest.value.bind _ = _
    rw [hrs]
    exact hmove
  have hupdates : (p.tick t).hasUpdates = true := by
    simp [Page.hasUpdates, Page.tick, Hook.update]
  -- its commit
  have hcommit : (p.tick t).commit = (p.tick t).render := Page.commit_eq htick
  have hcanvas : (p.tick t).render.canvas = some (.list ref) := href
  -- the effects: `robots` changed
  have hframes : (p.tick t).render.deps.frames = p.seen.frames + 1 := by
    change (p.tick t).robots.latest.frames = _
    rw [Page.latest_tick, h.seen]
    rfl
  have hdeps : (p.tick t).render.deps ≠ (p.tick t).render.seen := by
    intro heq
    have hseen : (p.tick t).render.deps.frames = p.seen.frames := congrArg Deps.frames heq
    omega
  -- so none of the three steps throws, and the last one starts the frame counter again
  have hrun : (pageSystem K).Run p [.tick, .commit, .effects] (p.tick t).render.runEffects := by
    have htickStep : p.act .tick = some (p.tick t) := Page.act_tick_iff.mpr ⟨t, ht, rfl⟩
    have hcommitStep : (p.tick t).act .commit = some (p.tick t).render :=
      Page.act_commit_iff.mpr ⟨⟨h.mounted, hupdates, h.effectsPending⟩, hcommit⟩
    have heffectsStep : (p.tick t).render.act .effects = some (p.tick t).render.runEffects :=
      Page.act_effects_iff.mpr ⟨rfl, Page.effects_eq hcanvas⟩
    exact .cons htickStep (.cons hcommitStep (.single heffectsStep))
  refine ⟨(p.tick t).render.runEffects, hrun, ?_⟩
  · exact {
      timer := by
        unfold Page.runEffects
        dsimp only
        rw [if_neg hdeps]
        change ∃ t', (p.target.latest.value.map _) = some t'
        rw [hv]
        exact ⟨_, rfl⟩
      target := ⟨v, hv⟩
      robots := ⟨rs', htick, by rw [hlen']; exact hlen⟩
      ref := ⟨rs', htick, by rw [hlen']; exact hlen⟩
      seen := rfl
      upToDate := ⟨rfl, rfl, rfl, rfl⟩
      effectsPending := rfl
      mounted := h.mounted }

/-- **The animation need not stop.** From a page that animates a list of two or more robots, or
of none, any number of ticks can follow one another with nothing in between but the commit and
the effects of each. -/
theorem animation_never_stops (h : Animating p) (n : ℕ) :
    ∃ q, (pageSystem K).Run p (List.replicate n [.tick, .commit, .effects]).flatten q ∧
      Animating q := by
  induction n with
  | zero => exact ⟨p, .nil p, h⟩
  | succ n ih =>
    obtain ⟨q, hrun, hq⟩ := ih
    obtain ⟨q', hframe, hq'⟩ := hq.frame
    refine ⟨q', ?_, hq'⟩
    rw [List.replicate_succ', List.flatten_append, List.flatten_singleton]
    exact hrun.append hframe

omit [JsArith K] in
theorem countP_isTick_frames (n : ℕ) :
    (List.replicate n [PageAction.tick, .commit, .effects]).flatten.countP
      (PageAction.isTick (K := K)) = n := by
  have hone : [PageAction.tick, .commit, .effects].countP (PageAction.isTick (K := K)) = 1 := rfl
  rw [List.countP_flatten, List.map_replicate, hone, List.sum_replicate, smul_eq_mul, mul_one]

/-- Two robots and a target. -/
theorem exists_animating (v : Vec K) :
    ∃ p, (pageSystem K).Run Page.initial
      [.setRobots, .setRobots, .onMoveCommand v, .commit, .effects] p ∧ Animating p := by
  refine ⟨_, System.Run.of_runAct rfl, ?_⟩
  exact {
    timer := ⟨_, rfl⟩
    target := ⟨_, rfl⟩
    robots := ⟨_, rfl, nofun⟩
    ref := ⟨_, rfl, nofun⟩
    seen := rfl
    upToDate := ⟨rfl, rfl, rfl, rfl⟩
    effectsPending := rfl
    mounted := rfl }

end Timer

theorem animation_stops_two_robots : ∃ p : Page ℝ, p.UpToDate ∧ (∃ t, p.timer = some t) ∧
    (∀ ks q, (((pageSystem ℝ).restrict ResetsForOutside).restrict NoOutsideChange).Run p ks q →
      ks.countP PageAction.isTick ≤ 120) ∧
    (∀ ks q, ((pageSystem ℝ).restrict ResetsForOutside).Run p ks q → p.UpToDate →
      (∀ a ∈ ks, a.isOutside = false) → ks.countP PageAction.isTick ≤ 120) := by
  have hstart : (pageSystem ℝ).Run Page.initial
      [.setRobots, .setRobots, .onMoveCommand ⟨3, 4⟩, .commit] _ := System.Run.of_runAct rfl
  have hbefore := hstart.to_restrict (G := ResetsForOutside) fun a ha q hq => by simp [hq] at ha
  -- the effects find two registrations and a target
  have heffects := hbefore.extend .effects (by intro _ _ hfinds; cases hfinds) rfl [] rfl nofun
  exact ⟨_, ⟨rfl, rfl, rfl, rfl⟩, ⟨_, rfl⟩, animation_stops heffects⟩

/-- Two robots keep moving for 121 frames after their target was set. -/
theorem animation_exceeds_limit :
    ¬ ∀ (ls ks : List (PageAction ℝ)) (p q : Page ℝ), (pageSystem ℝ).Run Page.initial ls p →
      (pageSystem ℝ).Run p ks q → p.UpToDate → (∀ a ∈ ks, a.isOutside = false) →
        ks.countP PageAction.isTick ≤ 120 := by
  intro h
  obtain ⟨p, hstart, hp⟩ := exists_animating (K := ℝ) ⟨3, 4⟩
  obtain ⟨q, hrun, -⟩ := animation_never_stops hp 121
  have hle := h _ _ p q hstart hrun hp.upToDate ?_
  · rw [countP_isTick_frames] at hle
    omega
  · -- no frame asks for an outside change
    intro a ha
    obtain ⟨frame, hframe, ha⟩ := List.mem_flatten.mp ha
    obtain rfl := List.eq_of_mem_replicate hframe
    simp only [List.mem_cons, List.not_mem_nil, or_false] at ha
    obtain rfl | rfl | rfl := ha <;> rfl

end SwarmBase
