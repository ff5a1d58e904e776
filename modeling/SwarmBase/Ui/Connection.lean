import SwarmBase.Framework.Others
import SwarmBase.Framework.System

/-!
# The connection to the chain

`initPolkadot` of `lib/polkadot.ts` and the effect of `Home` that calls it. The function looks
into `cached`, then waits three times, then fills `cached`. Calls that overlap all find it empty,
and each of them opens a connection of its own. React runs the effect of a page a second time when
it checks for missing cleanups, and the cleanup of the first run does not stop its call.

* `Accounted` — the invariant: what the calls and `cached` hold was created, and a call that found
  `cached` empty is under way or has filled it;
* `StartsAlone` — the condition: no call starts with an empty `cached` while another is under way;
* `opened_once` — the runs under this condition, and once all calls have returned no others, open
  one connection;
* `home_returned` — the page is given what a call has returned;
* `opened_twice` — the effect runs twice before the first call has returned.
-/

namespace SwarmBase

open Framework

/-! ### `lib/polkadot.ts` -/

/-- What `cached` is and what `initPolkadot` returns. An `ApiPromise` and a key pair are known by
how many were created before. -/
structure Cached where
  api : Option ℕ
  devPair : Option ℕ

/-- `cached.api && cached.devPair` -/
def Cached.isSet (c : Cached) : Bool := c.api.isSome && c.devPair.isSome

/-- The await a call of `initPolkadot` is at, with the variables it has assigned. -/
inductive InitPolkadot where
  | cryptoWaitReady
  | create (api devPair : ℕ)
  | isReady (api devPair : ℕ)
  | returned (result : Cached)

namespace InitPolkadot

def isReturned : InitPolkadot → Bool
  | .returned _ => true
  | _ => false

/-- The call has not opened its connection yet. -/
def isUnopened : InitPolkadot → Bool
  | .cryptoWaitReady => true
  | _ => false

end InitPolkadot

/-- The module: its variable, how many providers, `ApiPromise`s and key pairs its calls created,
and the calls, in the order they were made. -/
structure Polkadot where
  cached : Cached
  providers : ℕ
  apis : ℕ
  devPairs : ℕ
  calls : List InitPolkadot

namespace Polkadot

def initial : Polkadot := ⟨⟨none, none⟩, 0, 0, 0, []⟩

/-- `initPolkadot` is called, and runs up to its first await. -/
def initPolkadot (m : Polkadot) : Polkadot :=
  { m with
    calls := m.calls ++ [if m.cached.isSet then .returned m.cached else .cryptoWaitReady] }

/-- What the `i`-th call waits for has succeeded, and it goes on to the next await or to its
end. -/
def proceed (m : Polkadot) (i : ℕ) : Option Polkadot :=
  m.calls[i]?.bind fun
    | .cryptoWaitReady => some
      { m with
        devPairs := m.devPairs + 1
        providers := m.providers + 1
        apis := m.apis + 1
        calls := m.calls.set i (.create m.apis m.devPairs) }
    | .create api devPair => some { m with calls := m.calls.set i (.isReady api devPair) }
    | .isReady api devPair =>
      let cached : Cached := ⟨some api, some devPair⟩
      some { m with cached := cached, calls := m.calls.set i (.returned cached) }
    | .returned _ => none

end Polkadot

/-! ### `Home` -/

/-- A run of the effect of `Home` that connects. -/
structure ConnectEffect where
  /-- Its call of `initPolkadot`. -/
  call : ℕ
  alive : Bool
  /-- It has gone on after the call. -/
  resumed : Bool

structure Connections where
  polkadot : Polkadot
  effects : List ConnectEffect
  /-- The `api` and `signer` that the effect set last. -/
  home : Cached

inductive ConnectAction where
  /-- Anything calls `initPolkadot`. -/
  | call
  /-- The effect runs, and calls it. -/
  | mount
  /-- The cleanup of the `i`-th run of the effect. -/
  | cleanup (i : ℕ)
  /-- The `i`-th call goes on. -/
  | proceed (i : ℕ)
  /-- The `i`-th run of the effect goes on after its call. -/
  | resume (i : ℕ)

/-- Whether a step calls `initPolkadot`. -/
def ConnectAction.calls : ConnectAction → Bool
  | .call | .mount => true
  | _ => false

namespace Connections

/-- The module is loaded, and nothing is mounted. -/
def initial : Connections := ⟨.initial, [], ⟨none, none⟩⟩

/-- A run of the effect after its await, if it is there. -/
def resume (s : Connections) (i : ℕ) (e : ConnectEffect) : Option Connections :=
  match s.polkadot.calls[e.call]?, e.resumed with
  | some (.returned result), false => some
    { s with
      effects := s.effects.set i { e with resumed := true }
      home := if e.alive then result else s.home }
  | _, _ => none

/-- The module and the page after a step, if the step can be made. -/
def act (s : Connections) : ConnectAction → Option Connections
  | .call => some { s with polkadot := s.polkadot.initPolkadot }
  | .mount => some
    { s with
      polkadot := s.polkadot.initPolkadot
      effects := s.effects ++ [⟨s.polkadot.calls.length, true, false⟩] }
  | .cleanup i =>
    s.effects[i]?.map fun e => { s with effects := s.effects.set i { e with alive := false } }
  | .proceed i => (s.polkadot.proceed i).map fun m => { s with polkadot := m }
  | .resume i => s.effects[i]?.bind (s.resume i)

end Connections

/-- The page and the module from when the module is loaded. -/
def connectSystem : System Connections ConnectAction :=
  .ofAct (fun s => s = Connections.initial) Connections.act

/-! ### One connection -/

namespace Polkadot

/-- There is one provider and one `ApiPromise` at most, and all calls that have returned have
returned the same. -/
structure OpenedOnce (m : Polkadot) : Prop where
  providers : m.providers ≤ 1
  apis : m.apis ≤ 1
  returned : ∃ api, ∀ result, .returned result ∈ m.calls → result.api = some api

/-- No call is under way. -/
def AllReturned (m : Polkadot) : Prop := ∀ c ∈ m.calls, c.isReturned = true

/-- The calls so far that found `cached` empty: those that have opened a connection and those that
are going to. -/
def misses (m : Polkadot) : ℕ := m.providers + m.calls.countP InitPolkadot.isUnopened

end Polkadot

/-- The condition on the steps of a run: `initPolkadot` is called when `cached` is filled, or when
no call is under way. -/
def StartsAlone (s : Connections) (a : ConnectAction) : Prop :=
  a.calls = true → s.polkadot.cached.isSet = true ∨ s.polkadot.AllReturned

/-- What a call holds is one of the first `n`. -/
def InitPolkadot.Holds (n : ℕ) : InitPolkadot → Prop
  | .cryptoWaitReady => True
  | .create api _ | .isReady api _ => api < n
  | .returned result => ∃ api, result.api = some api ∧ api < n

theorem InitPolkadot.Holds.mono {m n : ℕ} (hle : m ≤ n) {c : InitPolkadot} (h : c.Holds m) :
    c.Holds n := by
  cases c with
  | cryptoWaitReady => exact h
  | create | isReady => exact Nat.lt_of_lt_of_le h hle
  | returned result =>
    obtain ⟨api, hapi, hlt⟩ := h
    exact ⟨api, hapi, Nat.lt_of_lt_of_le hlt hle⟩

namespace Polkadot

variable {m m' : Polkadot} {i : ℕ}

/-- The invariant. -/
structure Accounted (m : Polkadot) : Prop where
  apis : m.apis = m.providers
  calls : ∀ c ∈ m.calls, c.Holds m.apis
  cached : ∀ api, m.cached.api = some api → api < m.apis
  /-- Unless a call is under way, one that found `cached` empty has filled it. -/
  filled : 0 < m.misses → m.AllReturned → m.cached.isSet = true

theorem proceed_cases (h : m.proceed i = some m') :
    (m.calls[i]? = some .cryptoWaitReady ∧
      m' = { m with
        devPairs := m.devPairs + 1
        providers := m.providers + 1
        apis := m.apis + 1
        calls := m.calls.set i (.create m.apis m.devPairs) }) ∨
    (∃ api devPair, m.calls[i]? = some (.create api devPair) ∧
      m' = { m with calls := m.calls.set i (.isReady api devPair) }) ∨
    ∃ api devPair, m.calls[i]? = some (.isReady api devPair) ∧
      m' = { m with
        cached := ⟨some api, some devPair⟩
        calls := m.calls.set i (.returned ⟨some api, some devPair⟩) } := by
  obtain ⟨c, hc, h⟩ := Option.bind_eq_some_iff.mp h
  cases c with
  | cryptoWaitReady => exact Or.inl ⟨hc, (Option.some.inj h).symm⟩
  | create api devPair => exact Or.inr (Or.inl ⟨api, devPair, hc, (Option.some.inj h).symm⟩)
  | isReady api devPair => exact Or.inr (Or.inr ⟨api, devPair, hc, (Option.some.inj h).symm⟩)
  | returned result => cases h

/-! ### Misses -/

theorem misses_initPolkadot (m : Polkadot) :
    m.initPolkadot.misses = m.misses + if m.cached.isSet then 0 else 1 := by
  unfold misses initPolkadot
  rw [List.countP_append, List.countP_singleton, ← Nat.add_assoc]
  cases m.cached.isSet <;> rfl

/-- A call goes on: what it missed is counted as before. -/
theorem misses_proceed (h : m.proceed i = some m') : m'.misses = m.misses := by
  unfold misses
  obtain ⟨hc, rfl⟩ | ⟨api, devPair, hc, rfl⟩ | ⟨api, devPair, hc, rfl⟩ := proceed_cases h
  -- the call is no longer among those without a connection, which is counted instead
  · have hset := countP_set hc (.create m.apis m.devPairs) InitPolkadot.isUnopened
    change _ + 1 = _ + 0 at hset
    dsimp only
    omega
  · have hset := countP_set hc (.isReady api devPair) InitPolkadot.isUnopened
    exact congrArg (m.providers + ·) hset
  · have hset := countP_set hc (.returned ⟨some api, some devPair⟩) InitPolkadot.isUnopened
    exact congrArg (m.providers + ·) hset

/-- A call that goes on is not one that has returned. -/
theorem returned_proceed (h : m.proceed i = some m') {result : Cached}
    (hr : .returned result ∈ m.calls) : .returned result ∈ m'.calls := by
  obtain ⟨j, hj⟩ := List.getElem?_of_mem hr
  have hkeep : ∀ c d : InitPolkadot, m.calls[i]? = some c → c.isReturned = false →
      .returned result ∈ m.calls.set i d := by
    intro c d hc hunreturned
    have hne : i ≠ j := by
      rintro rfl
      obtain rfl := Option.some.inj (hc.symm.trans hj)
      cases hunreturned
    refine List.mem_of_getElem? (i := j) ?_
    rw [List.getElem?_set_ne hne]
    exact hj
  obtain ⟨hc, rfl⟩ | ⟨api, devPair, hc, rfl⟩ | ⟨api, devPair, hc, rfl⟩ := proceed_cases h
  · exact hkeep _ _ hc rfl
  · exact hkeep _ _ hc rfl
  · exact hkeep _ _ hc rfl

/-- A call under way found `cached` empty. -/
theorem Accounted.misses_pos (h : m.Accounted) (hall : ¬ m.AllReturned) : 0 < m.misses := by
  unfold AllReturned at hall
  push Not at hall
  obtain ⟨c, hc, hreturned⟩ := hall
  have hopened : ∀ api, api < m.apis → 0 < m.misses := by
    intro api hapi
    have hapis := h.apis
    unfold misses
    omega
  cases c with
  | cryptoWaitReady =>
    exact Nat.lt_of_lt_of_le (List.countP_pos_iff.mpr ⟨_, hc, rfl⟩) (Nat.le_add_left _ _)
  | create api | isReady api => exact hopened api (h.calls _ hc)
  | returned result => exact absurd rfl hreturned

/-- Once all calls have returned, a miss is a provider. -/
theorem AllReturned.misses_eq (h : m.AllReturned) : m.misses = m.providers := by
  have hnone : m.calls.countP InitPolkadot.isUnopened = 0 := by
    refine List.countP_eq_zero.mpr fun c hc hunopened => ?_
    cases c with
    | cryptoWaitReady => cases h _ hc
    | create | isReady | returned => cases hunopened
  unfold misses
  rw [hnone, Nat.add_zero]

/-! ### The invariant -/

theorem Accounted.initial : Accounted .initial where
  apis := rfl
  calls := nofun
  cached := nofun
  filled h := absurd h (Nat.lt_irrefl 0)

theorem Accounted.initPolkadot (h : m.Accounted) : m.initPolkadot.Accounted where
  apis := h.apis
  calls := by
    intro c hc
    obtain hc | hc := List.mem_append.mp hc
    · exact h.calls c hc
    · obtain rfl := List.mem_singleton.mp hc
      split_ifs with hset
      · -- what `cached` holds was created
        obtain ⟨api, hapi⟩ := Option.isSome_iff_exists.mp (Bool.and_eq_true_iff.mp hset).1
        exact ⟨api, hapi, h.cached api hapi⟩
      · trivial
  cached := h.cached
  filled := by
    intro _ hall
    have hnew := hall _ (List.mem_append_right _ (List.mem_singleton_self _))
    change m.cached.isSet = true
    split_ifs at hnew with hset
    · exact hset
    · cases hnew

/-- A call that goes on holds what was created. -/
theorem holds_set {c : InitPolkadot} {n : ℕ} (h : ∀ c ∈ m.calls, c.Holds n) (hc : c.Holds n) :
    ∀ c' ∈ m.calls.set i c, c'.Holds n := by
  intro c' hc'
  obtain hmem | rfl := List.mem_or_eq_of_mem_set hc'
  · exact h c' hmem
  · exact hc

/-- A call that goes on to another await is under way. -/
theorem not_allReturned_set {c d : InitPolkadot} (hc : m.calls[i]? = some c)
    (hd : d.isReturned = false) (h : ∀ c' ∈ m.calls.set i d, c'.isReturned = true) : False := by
  obtain ⟨hi, -⟩ := List.getElem?_eq_some_iff.mp hc
  have hreturned := h d (List.mem_set hi d)
  rw [hd] at hreturned
  cases hreturned

theorem Accounted.proceed (h : m.Accounted) (hm : m.proceed i = some m') : m'.Accounted := by
  obtain ⟨hc, rfl⟩ | ⟨api, devPair, hc, rfl⟩ | ⟨api, devPair, hc, rfl⟩ := proceed_cases hm
  · refine ⟨congrArg (· + 1) h.apis, ?_, ?_, ?_⟩
    · exact holds_set (fun c hc => (h.calls c hc).mono (Nat.le_succ _)) (Nat.lt_succ_self m.apis)
    · exact fun api hapi => Nat.lt_succ_of_lt (h.cached api hapi)
    · exact fun _ hall => (not_allReturned_set hc rfl hall).elim
  · have hapi : api < m.apis := h.calls _ (List.mem_of_getElem? hc)
    refine ⟨h.apis, holds_set h.calls hapi, h.cached, ?_⟩
    exact fun _ hall => (not_allReturned_set hc rfl hall).elim
  · -- `cached` is filled with what the call holds
    have hapi : api < m.apis := h.calls _ (List.mem_of_getElem? hc)
    refine ⟨h.apis, holds_set h.calls ⟨api, rfl, hapi⟩, ?_, fun _ _ => rfl⟩
    intro api' heq
    obtain rfl := Option.some.inj heq
    exact hapi

/-- One miss opens one connection. -/
theorem Accounted.openedOnce (h : m.Accounted) (hle : m.misses ≤ 1) : m.OpenedOnce := by
  have hproviders : m.providers ≤ 1 := Nat.le_trans (Nat.le_add_right _ _) hle
  have hapis : m.apis ≤ 1 := by
    rw [h.apis]
    exact hproviders
  refine ⟨hproviders, hapis, 0, ?_⟩
  intro result hmem
  obtain ⟨api, hapi, hlt⟩ := h.calls _ hmem
  -- the one that was created is the first
  obtain rfl : api = 0 := by omega
  exact hapi

end Polkadot

/-! ### Runs -/

namespace Connections

variable {s s' : Connections} {a : ConnectAction} {ls : List ConnectAction}

/-- **Inversion.** To the module a step is a call, or a call that goes on, or nothing. -/
theorem act_cases (h : s.act a = some s') :
    (a.calls = true ∧ s'.polkadot = s.polkadot.initPolkadot) ∨
    (a.calls = false ∧ ∃ i, s.polkadot.proceed i = some s'.polkadot) ∨
    (a.calls = false ∧ s'.polkadot = s.polkadot) := by
  cases a with
  | call | mount =>
    obtain rfl := Option.some.inj h
    exact Or.inl ⟨rfl, rfl⟩
  | cleanup i =>
    obtain ⟨e, -, rfl⟩ := Option.map_eq_some_iff.mp h
    exact Or.inr (Or.inr ⟨rfl, rfl⟩)
  | proceed i =>
    obtain ⟨m, hm, rfl⟩ := Option.map_eq_some_iff.mp h
    exact Or.inr (Or.inl ⟨rfl, i, hm⟩)
  | resume i =>
    obtain ⟨e, -, h⟩ := Option.bind_eq_some_iff.mp h
    unfold resume at h
    split at h
    · obtain rfl := Option.some.inj h
      exact Or.inr (Or.inr ⟨rfl, rfl⟩)
    · cases h

theorem accounted_act (h : s.polkadot.Accounted) (ha : s.act a = some s') :
    s'.polkadot.Accounted := by
  obtain ⟨-, heq⟩ | ⟨-, i, hm⟩ | ⟨-, heq⟩ := act_cases ha
  · rw [heq]
    exact h.initPolkadot
  · exact h.proceed hm
  · rw [heq]
    exact h

/-- A step misses if it calls `initPolkadot` with an empty `cached`. -/
theorem misses_act (ha : s.act a = some s') : s'.polkadot.misses = s.polkadot.misses +
    if a.calls && !s.polkadot.cached.isSet then 1 else 0 := by
  obtain ⟨hcalls, heq⟩ | ⟨hcalls, i, hm⟩ | ⟨hcalls, heq⟩ := act_cases ha
  · rw [heq, Polkadot.misses_initPolkadot, hcalls]
    cases s.polkadot.cached.isSet <;> rfl
  · rw [Polkadot.misses_proceed hm, hcalls]
    rfl
  · rw [heq, hcalls]
    rfl

/-- Under the condition there is one miss at most. -/
theorem misses_le_one (h : s.polkadot.Accounted) (hle : s.polkadot.misses ≤ 1)
    (hG : StartsAlone s a) (ha : s.act a = some s') : s'.polkadot.misses ≤ 1 := by
  rw [misses_act ha]
  split_ifs with hmiss
  · -- had there been a miss before, `cached` would be filled
    obtain ⟨hcalls, hempty⟩ := Bool.and_eq_true_iff.mp hmiss
    by_contra hlt
    have hset : s.polkadot.cached.isSet = true := by
      obtain hset | hall := hG hcalls
      · exact hset
      · exact h.filled (by omega) hall
    rw [hset] at hempty
    cases hempty
  · exact hle

/-- A violation of the condition is a second miss. -/
theorem two_le_misses (h : s.polkadot.Accounted) (hG : ¬ StartsAlone s a)
    (ha : s.act a = some s') : 2 ≤ s'.polkadot.misses := by
  unfold StartsAlone at hG
  push Not at hG
  obtain ⟨hcalls, hempty, hall⟩ := hG
  have hpos := h.misses_pos hall
  rw [misses_act ha, hcalls, Bool.eq_false_iff.mpr hempty]
  change 2 ≤ s.polkadot.misses + 1
  omega

/-- **One connection.** In every run in which a call starts only when `cached` is filled or no
call is under way, there is one provider and one `ApiPromise` at most, and the calls that have
returned have returned the same; once all calls have returned, this is so in no other run. -/
theorem opened_once (h : connectSystem.Run .initial ls s) :
    ((connectSystem.restrict StartsAlone).Run .initial ls s → s.polkadot.OpenedOnce) ∧
    (s.polkadot.AllReturned → s.polkadot.OpenedOnce →
      (connectSystem.restrict StartsAlone).Run .initial ls s) := by
  refine ⟨?_, ?_⟩
  · intro hrun
    have hmisses : s.polkadot.Accounted ∧ s.polkadot.misses ≤ 1 := by
      refine hrun.invariant (I := fun s => s.polkadot.Accounted ∧ s.polkadot.misses ≤ 1)
        ⟨.initial, Nat.zero_le 1⟩ ?_
      intro s a s' ⟨hacc, hle⟩ ⟨hG, ha⟩
      exact ⟨accounted_act hacc ha, misses_le_one hacc hle hG ha⟩
    exact hmisses.1.openedOnce hmisses.2
  · intro hall honce
    have hor : (connectSystem.restrict StartsAlone).Run .initial ls s ∨ 2 ≤ s.polkadot.misses := by
      refine h.restrict_or (I := fun s => s.polkadot.Accounted)
        (B := fun s => 2 ≤ s.polkadot.misses) .initial ?_ ?_ ?_
      · exact fun s a s' hacc ha => accounted_act hacc ha
      · exact fun s a s' hacc ha hG => two_le_misses hacc hG ha
      · -- a miss is not undone
        intro s a s' _ ha hle
        rw [misses_act ha]
        exact Nat.le_add_right_of_le hle
    obtain hrun | htwo := hor
    · exact hrun
    · rw [hall.misses_eq] at htwo
      exact absurd honce.providers (Nat.not_le.mpr htwo)

/-- What the page was given, a call has returned. -/
theorem home_returned (h : connectSystem.Run .initial ls s) :
    s.home = ⟨none, none⟩ ∨ .returned s.home ∈ s.polkadot.calls := by
  refine h.invariant (I := fun s => s.home = ⟨none, none⟩ ∨ .returned s.home ∈ s.polkadot.calls)
    (Or.inl rfl) ?_
  intro s a s' hhome ha
  cases a with
  | call | mount =>
    obtain rfl := Option.some.inj ha
    exact hhome.imp_right fun hmem => List.mem_append_left _ hmem
  | cleanup i =>
    obtain ⟨e, -, rfl⟩ := Option.map_eq_some_iff.mp ha
    exact hhome
  | proceed i =>
    obtain ⟨m, hm, rfl⟩ := Option.map_eq_some_iff.mp ha
    exact hhome.imp_right (Polkadot.returned_proceed hm)
  | resume i =>
    obtain ⟨e, -, ha⟩ := Option.bind_eq_some_iff.mp ha
    unfold resume at ha
    split at ha
    · rename_i result hcall _
      obtain rfl := Option.some.inj ha
      -- an effect that was cleaned up sets nothing
      cases halive : e.alive with
      | true => exact Or.inr (List.mem_of_getElem? hcall)
      | false => exact hhome
    · cases ha

/-- The effect runs again after its first call has returned. -/
theorem opened_once_mounted_twice :
    ∃ s : Connections, s.polkadot.calls.length = 2 ∧ s.polkadot.OpenedOnce := by
  have hfree : ∀ a ∈ [.proceed 0, .proceed 0, .proceed 0, .cleanup 0], ∀ s, StartsAlone s a := by
    intro a ha s hcalls
    simp only [List.mem_cons, List.not_mem_nil, or_false] at ha
    obtain rfl | rfl | rfl | rfl := ha <;> cases hcalls
  have hfirst := (System.Run.nil (M := connectSystem.restrict StartsAlone) .initial).extend .mount
    (fun _ => Or.inr nofun) rfl _ rfl hfree
  have hsecond := hfirst.extend .mount (fun _ => Or.inl rfl) rfl [] rfl nofun
  exact ⟨_, rfl, (opened_once hsecond.of_restrict).1 hsecond⟩

/-- The effect runs, is cleaned up and runs again before the first call has opened its
connection. -/
theorem opened_twice :
    ¬ ∀ (ls : List ConnectAction) (s : Connections), connectSystem.Run .initial ls s →
      s.polkadot.OpenedOnce := by
  intro h
  have honce := h [.mount, .cleanup 0, .mount, .proceed 0, .proceed 1] _ (.of_runAct rfl)
  have htwo : (2 : ℕ) ≤ 1 := honce.providers
  exact absurd htwo (by decide)

end Connections

end SwarmBase
