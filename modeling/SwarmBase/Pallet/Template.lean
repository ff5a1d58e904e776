import SwarmBase.Framework.Unsigned
import SwarmBase.Pallet.Frame

/-!
# The template pallet

`pallets/template`: one stored block number, which `do_something` sets and `cause_error`
increments.

The abstract view is a counter: the argument of the last `do_something` that succeeded, and how
many calls of `cause_error` have succeeded since (`LastSet`). The stored number is their sum
(`StoredSum`), at every type of block numbers.

* `dispatches` — what each call does, error paths included, from which everything else follows;
* `storage_characterised` — the storage after any run, and what the next call does to it.
-/

namespace SwarmBase.Template

open Framework

/-- A type of block numbers holds every `u32`. -/
class BlockNumber (N : Type) extends Unsigned N where
  u32_le_max : 2 ^ 32 - 1 ≤ max

namespace BlockNumber

variable {N : Type} [BlockNumber N]

/-- `bn.into()`. -/
def ofU32 (bn : UInt32) : N :=
  Unsigned.ofNat bn.toNat ((Nat.le_sub_one_of_lt bn.toNat_lt).trans u32_le_max)

/-- `One::one()`. -/
def one : N := Unsigned.ofNat 1 (le_trans (by decide) (u32_le_max (N := N)))

@[simp] theorem toNat_ofU32 (bn : UInt32) : Unsigned.toNat (ofU32 bn : N) = bn.toNat :=
  Unsigned.toNat_ofNat _ _

@[simp] theorem toNat_one : Unsigned.toNat (one : N) = 1 := Unsigned.toNat_ofNat _ _

end BlockNumber

/-- The block numbers of the runtime. -/
instance : BlockNumber UInt32 where
  u32_le_max := Nat.le_refl _

/-! ### The pallet -/

inductive Error where
  | noneValue
  | storageOverflow
  deriving DecidableEq

structure CompositeStruct (N : Type) where
  blockNumber : N

inductive Event (AccountId N : Type) where
  | somethingStored (blockNumber : N) (who : AccountId)

/-- The storage of the pallet, with the log its events are deposited in. -/
structure Storage (AccountId N : Type) where
  something : Option (CompositeStruct N)
  events : List (Event AccountId N)

/-- Empty storage. -/
def Storage.empty (AccountId N : Type) : Storage AccountId N := ⟨none, []⟩

/-- A dispatchable of the pallet. -/
abbrev DispatchM (AccountId N : Type) := EStateM (DispatchError Error) (Storage AccountId N)

/-- The calls of the pallet. -/
inductive Call where
  | doSomething (bn : UInt32)
  | causeError
  deriving DecidableEq

/-- A call with the origin it is dispatched from. -/
structure Extrinsic (AccountId : Type) where
  origin : Origin AccountId
  call : Call

variable {AccountId N : Type}

def depositEvent (event : Event AccountId N) : DispatchM AccountId N Unit :=
  modify fun s => { s with events := s.events ++ [event] }

def putSomething (c : CompositeStruct N) : DispatchM AccountId N Unit :=
  modify fun s => { s with something := some c }

variable [BlockNumber N]

def doSomething (origin : Origin AccountId) (bn : UInt32) : DispatchM AccountId N Unit := do
  let who ← Frame.ensureSigned origin
  let blockNumber : N := BlockNumber.ofU32 bn
  putSomething { blockNumber := blockNumber }
  depositEvent (.somethingStored blockNumber who)

def causeError (origin : Origin AccountId) : DispatchM AccountId N Unit := do
  let _who ← Frame.ensureSigned origin
  match (← get).something with
  | none => throw (.pallet .noneValue)
  | some old =>
    let blockNumber ←
      Frame.okOr (Unsigned.checkedAdd old.blockNumber BlockNumber.one) .storageOverflow
    putSomething { old with blockNumber := blockNumber }

def dispatch (x : Extrinsic AccountId) : DispatchM AccountId N Unit :=
  match x.call with
  | .doSomething bn => doSomething x.origin bn
  | .causeError => causeError x.origin

/-! ### What each call does -/

/-- What a call does to the storage, one constructor for each way it can end. -/
inductive Dispatches (s : Storage AccountId N) : Extrinsic AccountId →
    EStateM.Result (DispatchError Error) (Storage AccountId N) Unit → Prop where
  | badOrigin (x : Extrinsic AccountId) (h : ∀ who, x.origin ≠ .signed who) :
      Dispatches s x (.error .badOrigin s)
  | doSomething (who : AccountId) (bn : UInt32) :
      Dispatches s ⟨.signed who, .doSomething bn⟩
        (.ok () { something := some ⟨BlockNumber.ofU32 bn⟩,
                  events := s.events ++ [.somethingStored (BlockNumber.ofU32 bn) who] })
  | noneValue (who : AccountId) (h : s.something = none) :
      Dispatches s ⟨.signed who, .causeError⟩ (.error (.pallet .noneValue) s)
  | storageOverflow (who : AccountId) (old : CompositeStruct N) (h : s.something = some old)
      (hmax : Unsigned.toNat old.blockNumber = Unsigned.max N) :
      Dispatches s ⟨.signed who, .causeError⟩ (.error (.pallet .storageOverflow) s)
  | causeError (who : AccountId) (old new : CompositeStruct N) (h : s.something = some old)
      (hnew : Unsigned.toNat new.blockNumber = Unsigned.toNat old.blockNumber + 1) :
      Dispatches s ⟨.signed who, .causeError⟩ (.ok () { s with something := some new })

/-- **Inversion, calls.** -/
theorem dispatches (s : Storage AccountId N) (x : Extrinsic AccountId) :
    Dispatches s x (dispatch x s) := by
  obtain ⟨o, call⟩ := x
  cases o with
  | root =>
    have hroot : dispatch ⟨.root, call⟩ s = .error .badOrigin s := by cases call <;> rfl
    rw [hroot]
    exact .badOrigin _ nofun
  | none =>
    have hnone : dispatch ⟨.none, call⟩ s = .error .badOrigin s := by cases call <;> rfl
    rw [hnone]
    exact .badOrigin _ nofun
  | signed who =>
    cases call with
    | doSomething bn => exact .doSomething who bn
    | causeError =>
      obtain ⟨something, events⟩ := s
      cases something with
      | none => exact .noneValue who rfl
      | some old =>
        -- past the read, all depends on the addition
        change Dispatches _ _ (EStateM.bind (Frame.okOr (Unsigned.checkedAdd _ _) _) _ _)
        cases hadd : Unsigned.checkedAdd old.blockNumber (BlockNumber.one : N) with
        | none =>
          refine .storageOverflow who old rfl (Nat.le_antisymm (Unsigned.toNat_le _) ?_)
          have hlt := Unsigned.checkedAdd_eq_none_iff.mp hadd
          rw [BlockNumber.toNat_one] at hlt
          exact Nat.le_of_lt_succ hlt
        | some n =>
          refine .causeError who old ⟨n⟩ rfl ?_
          rw [Unsigned.toNat_of_checkedAdd hadd, BlockNumber.toNat_one]

section Step

variable {s s' : Storage AccountId N} {x : Extrinsic AccountId} {who : AccountId}

/-- A failing call changes neither the number nor the events. -/
theorem dispatch_atomic :
    Exec.Atomic (dispatch : Extrinsic AccountId → DispatchM AccountId N Unit) := by
  intro x s e s' h
  have hx := dispatches s x
  rw [h] at hx
  cases hx with
  | badOrigin | noneValue | storageOverflow => rfl

theorem dispatch_unsigned (s : Storage AccountId N) (h : ∀ who, x.origin ≠ .signed who) :
    dispatch x s = .error .badOrigin s := by
  have hx := dispatches s x
  generalize dispatch x s = r at hx
  cases hx with
  | badOrigin => rfl
  | doSomething who | noneValue who | storageOverflow who | causeError who =>
    exact absurd rfl (h who)

/-- When `cause_error` fails, and with what. -/
theorem dispatch_causeError_iff (s : Storage AccountId N) (who : AccountId) :
    (dispatch ⟨.signed who, .causeError⟩ s = .error (.pallet .noneValue) s ↔ s.something = none) ∧
    (dispatch ⟨.signed who, .causeError⟩ s = .error (.pallet .storageOverflow) s ↔
      ∃ old, s.something = some old ∧ Unsigned.toNat old.blockNumber = Unsigned.max N) := by
  have hx := dispatches s ⟨.signed who, .causeError⟩
  generalize dispatch ⟨.signed who, .causeError⟩ s = r at hx
  cases hx with
  | badOrigin _ h => exact absurd rfl (h who)
  | noneValue _ h =>
    refine ⟨iff_of_true rfl h, iff_of_false nofun ?_⟩
    rintro ⟨old, hold, -⟩
    cases h.symm.trans hold
  | storageOverflow _ old h hmax =>
    refine ⟨iff_of_false nofun ?_, iff_of_true rfl ⟨old, h, hmax⟩⟩
    intro hnone
    cases hnone.symm.trans h
  | causeError _ old new h hnew =>
    refine ⟨iff_of_false nofun ?_, iff_of_false nofun ?_⟩
    · intro hnone
      cases hnone.symm.trans h
    · rintro ⟨old', hold, hmax⟩
      obtain rfl := Option.some.inj (h.symm.trans hold)
      -- the new number would exceed the maximum
      have hle := Unsigned.toNat_le new.blockNumber
      rw [hnew, hmax] at hle
      exact absurd hle (Nat.not_succ_le_self _)

end Step

/-! ### The abstract counter -/

/-- The last `do_something` of a list of calls has the argument `bn`, and `k` calls of
`cause_error` follow it. -/
def LastSet (cs : List (Extrinsic AccountId)) (bn : UInt32) (k : ℕ) : Prop :=
  ∃ pre x post, cs = pre ++ x :: post ∧ x.call = .doSomething bn ∧
    (∀ y ∈ post, y.call = .causeError) ∧ post.length = k

/-- A counter, set and counted up. -/
def Call.count (c : Option (UInt32 × ℕ)) : Call → Option (UInt32 × ℕ)
  | .doSomething bn => some (bn, 0)
  | .causeError => c.map fun (bn, k) => (bn, k + 1)

/-- The counter after a list of calls. -/
def counted (cs : List (Extrinsic AccountId)) : Option (UInt32 × ℕ) :=
  cs.foldl (fun c x => x.call.count c) none

section Counter

omit [BlockNumber N]

variable {cs : List (Extrinsic AccountId)} {x : Extrinsic AccountId} {bn : UInt32} {k : ℕ}

theorem counted_concat (cs : List (Extrinsic AccountId)) (x : Extrinsic AccountId) :
    counted (cs ++ [x]) = x.call.count (counted cs) := by
  unfold counted
  rw [List.foldl_append, List.foldl_cons, List.foldl_nil]

/-- The last call is the last `do_something`, or one of the calls that follow it. -/
theorem lastSet_concat_iff :
    LastSet (cs ++ [x]) bn k ↔ (x.call = .doSomething bn ∧ k = 0) ∨
      (x.call = .causeError ∧ ∃ j, LastSet cs bn j ∧ k = j + 1) := by
  refine ⟨?_, ?_⟩
  · rintro ⟨pre, y, post, hcs, hy, hpost, rfl⟩
    rcases post.eq_nil_or_concat with rfl | ⟨rest, z, hrest⟩
    · obtain ⟨-, hxy⟩ := List.append_inj' hcs rfl
      obtain rfl := List.singleton_inj.mp hxy
      exact Or.inl ⟨hy, rfl⟩
    · rw [List.concat_eq_append] at hrest
      subst hrest
      rw [← List.cons_append, ← List.append_assoc] at hcs
      obtain ⟨rfl, hxz⟩ := List.append_inj' hcs rfl
      obtain rfl := List.singleton_inj.mp hxz
      refine Or.inr ⟨hpost x (List.mem_append_right _ (List.mem_singleton_self x)), rest.length,
        ⟨pre, y, rest, rfl, hy, fun w hw => hpost w (List.mem_append_left _ hw), rfl⟩, ?_⟩
      rw [List.length_append, List.length_singleton]
  · rintro (⟨hx, rfl⟩ | ⟨hx, j, ⟨pre, y, post, rfl, hy, hpost, rfl⟩, rfl⟩)
    · exact ⟨cs, x, [], rfl, hx, nofun, rfl⟩
    · refine ⟨pre, y, post ++ [x], ?_, hy, ?_, ?_⟩
      · rw [List.append_assoc, List.cons_append]
      · intro w hw
        rcases List.mem_append.mp hw with hw | hw
        · exact hpost w hw
        · rw [List.mem_singleton.mp hw]
          exact hx
      · rw [List.length_append, List.length_singleton]

/-- The counter computes what `LastSet` says. -/
theorem counted_eq_some_iff : counted cs = some (bn, k) ↔ LastSet cs bn k := by
  induction cs using List.reverseRecOn generalizing k with
  | nil =>
    refine iff_of_false nofun ?_
    rintro ⟨pre, x, post, hcs, -⟩
    cases (List.append_eq_nil_iff.mp hcs.symm).2
  | append_singleton cs x ih =>
    rw [counted_concat, lastSet_concat_iff]
    cases hx : x.call with
    | doSomething v =>
      rw [or_iff_left (fun h => nomatch h.1)]
      show some (v, 0) = some (bn, k) ↔ _
      rw [Option.some_inj, Prod.mk.injEq, Call.doSomething.injEq, eq_comm (a := 0)]
    | causeError =>
      rw [or_iff_right (fun h => nomatch h.1)]
      show (counted cs).map (fun c => (c.1, c.2 + 1)) = some (bn, k) ↔ _
      rw [Option.map_eq_some_iff]
      refine ⟨?_, ?_⟩
      · rintro ⟨⟨v, j⟩, hj, hc⟩
        obtain ⟨rfl, rfl⟩ := Prod.mk.inj hc
        exact ⟨rfl, j, ih.mp hj, rfl⟩
      · rintro ⟨-, j, hj, rfl⟩
        exact ⟨(bn, j), ih.mpr hj, rfl⟩

end Counter

/-! ### Runs -/

/-- The storage after a run of calls from empty storage. -/
def run (N : Type) [BlockNumber N] (xs : List (Extrinsic AccountId)) : Storage AccountId N :=
  Exec.run dispatch (Storage.empty AccountId N) xs

/-- The calls of a run from empty storage that succeeded. -/
def accepted (N : Type) [BlockNumber N] (xs : List (Extrinsic AccountId)) :
    List (Extrinsic AccountId) :=
  Exec.accepted dispatch (Storage.empty AccountId N) xs

/-- The number that is stored. -/
def Storage.value (s : Storage AccountId N) : Option ℕ :=
  s.something.map fun c => Unsigned.toNat c.blockNumber

/-- The storage after a run, in terms of its calls: the stored number is the value of the
counter. -/
structure StoredSum (xs : List (Extrinsic AccountId)) (s : Storage AccountId N) : Prop where
  none_iff : s.something = none ↔ ∀ who bn, ⟨.signed who, .doSomething bn⟩ ∉ xs
  value : s.value = (counted (accepted N xs)).map fun c => c.1.toNat + c.2

section Runs

variable {xs : List (Extrinsic AccountId)} {x : Extrinsic AccountId}
  {s s' : Storage AccountId N} {e : DispatchError Error}

/-- **Refinement, a call that returns.** -/
theorem value_ok {c : Option (UInt32 × ℕ)} (h : s.value = c.map fun c => c.1.toNat + c.2)
    (hx : dispatch x s = .ok () s') : s'.value = (x.call.count c).map fun c => c.1.toNat + c.2 := by
  have hd := dispatches s x
  rw [hx] at hd
  cases hd with
  | doSomething who bn => exact congrArg some (BlockNumber.toNat_ofU32 bn)
  | causeError who old new hold hnew =>
    have hvalue : s.value = some (Unsigned.toNat old.blockNumber) := by
      unfold Storage.value
      rw [hold]
      rfl
    rw [hvalue] at h
    obtain ⟨⟨bn, k⟩, rfl, hsum⟩ := Option.map_eq_some_iff.mp h.symm
    have hvalue' : Unsigned.toNat new.blockNumber = bn.toNat + (k + 1) := by
      rw [hnew, ← hsum]
      exact Nat.add_assoc _ _ _
    exact congrArg some hvalue'

/-- Only a signed `do_something` starts the counter. -/
theorem something_ok (hx : dispatch x s = .ok () s') :
    s'.something = none ↔ s.something = none ∧ ∀ who bn, x ≠ ⟨.signed who, .doSomething bn⟩ := by
  have hd := dispatches s x
  rw [hx] at hd
  cases hd with
  | doSomething who bn => exact iff_of_false nofun fun h => h.2 who bn rfl
  | causeError who old new hold hnew =>
    refine iff_of_false nofun fun h => ?_
    cases hold.symm.trans h.1

/-- A signed `do_something` does not fail. -/
theorem ne_doSomething_of_error (hx : dispatch x s = .error e s') (who : AccountId) (bn : UInt32) :
    x ≠ ⟨.signed who, .doSomething bn⟩ := by
  rintro rfl
  cases hx

omit [BlockNumber N] in
theorem forall_not_mem_concat_iff :
    (∀ who bn, ⟨.signed who, .doSomething bn⟩ ∉ xs ++ [x]) ↔
      (∀ who bn, ⟨.signed who, .doSomething bn⟩ ∉ xs) ∧
        ∀ who bn, x ≠ ⟨.signed who, .doSomething bn⟩ := by
  simp only [List.mem_append, List.mem_singleton, not_or, forall_and, ne_eq, eq_comm]

/-- **Whole runs.** -/
theorem storedSum (xs : List (Extrinsic AccountId)) : StoredSum xs (run N xs) := by
  refine Exec.run_induction (P := fun xs (s : Storage AccountId N) => StoredSum xs s)
    ⟨iff_of_true rfl fun _ _ => List.not_mem_nil, rfl⟩ ?_ ?_ xs
  · rintro xs x ⟨⟩ s' ⟨hnone, hvalue⟩ hx
    refine ⟨?_, ?_⟩
    · rw [something_ok hx, hnone, forall_not_mem_concat_iff]
    · unfold accepted
      rw [Exec.accepted_concat_ok hx, counted_concat]
      exact value_ok hvalue hx
  · rintro xs x e s' ⟨hnone, hvalue⟩ hx
    obtain rfl := dispatch_atomic x _ e s' hx
    refine ⟨?_, ?_⟩
    · rw [hnone, forall_not_mem_concat_iff]
      exact (and_iff_left (ne_doSomething_of_error hx)).symm
    · unfold accepted
      rw [Exec.accepted_concat_error hx]
      exact hvalue

theorem StoredSum.lastSet {s : Storage AccountId N} (h : StoredSum xs s) {old : CompositeStruct N}
    (hold : s.something = some old) :
    ∃ bn k, LastSet (accepted N xs) bn k ∧ Unsigned.toNat old.blockNumber = bn.toNat + k := by
  have hvalue := h.value
  unfold Storage.value at hvalue
  rw [hold] at hvalue
  obtain ⟨⟨bn, k⟩, hcounted, hsum⟩ := Option.map_eq_some_iff.mp hvalue.symm
  exact ⟨bn, k, counted_eq_some_iff.mp hcounted, hsum.symm⟩

theorem StoredSum.of_lastSet {s : Storage AccountId N} (h : StoredSum xs s) {bn : UInt32} {k : ℕ}
    (hlast : LastSet (accepted N xs) bn k) :
    ∃ c, s.something = some c ∧ Unsigned.toNat c.blockNumber = bn.toNat + k := by
  have hvalue := h.value
  rw [counted_eq_some_iff.mpr hlast] at hvalue
  exact Option.map_eq_some_iff.mp hvalue

end Runs

/-- What the storage is after a run of calls, and how it answers the next one. -/
structure Characterised (N : Type) [BlockNumber N] (xs : List (Extrinsic AccountId)) : Prop where
  none_iff : (run N xs).something = none ↔ ∀ who bn, ⟨.signed who, .doSomething bn⟩ ∉ xs
  some_iff : (run N xs).something ≠ none ↔ ∃ bn k, LastSet (accepted N xs) bn k
  /-- The exact sum. -/
  value : ∀ bn k, LastSet (accepted N xs) bn k →
    ∃ c, (run N xs).something = some c ∧ Unsigned.toNat c.blockNumber = bn.toNat + k
  noneValue_iff : ∀ who, dispatch ⟨.signed who, .causeError⟩ (run N xs) =
    .error (.pallet .noneValue) (run N xs) ↔ (run N xs).something = none
  storageOverflow_iff : ∀ who, dispatch ⟨.signed who, .causeError⟩ (run N xs) =
    .error (.pallet .storageOverflow) (run N xs) ↔
      ∃ bn k, LastSet (accepted N xs) bn k ∧ bn.toNat + k = Unsigned.max N
  unsigned : ∀ x, (∀ who, x.origin ≠ .signed who) →
    dispatch x (run N xs) = .error .badOrigin (run N xs)
  /-- A failing call leaves number and events as they were. -/
  failing : ∀ x e s, dispatch x (run N xs) = .error e s → s = run N xs

/-- **Template pallet storage over whole runs.** At every type of block numbers that holds every
`u32`, and after every run of calls by any origins from empty storage. -/
theorem storage_characterised (N : Type) [BlockNumber N] (xs : List (Extrinsic AccountId)) :
    Characterised N xs := by
  have hsum : StoredSum xs (run N xs) := storedSum xs
  exact {
    none_iff := hsum.none_iff
    some_iff := by
      refine ⟨?_, ?_⟩
      · intro hne
        obtain ⟨old, hold⟩ := Option.ne_none_iff_exists'.mp hne
        obtain ⟨bn, k, hlast, -⟩ := hsum.lastSet hold
        exact ⟨bn, k, hlast⟩
      · rintro ⟨bn, k, hlast⟩ hnone
        obtain ⟨c, hc, -⟩ := hsum.of_lastSet hlast
        cases hnone.symm.trans hc
    value := fun bn k hlast => hsum.of_lastSet hlast
    noneValue_iff := fun who => (dispatch_causeError_iff _ who).1
    storageOverflow_iff := by
      intro who
      rw [(dispatch_causeError_iff _ who).2]
      refine ⟨?_, ?_⟩
      · rintro ⟨old, hold, hmax⟩
        obtain ⟨bn, k, hlast, hvalue⟩ := hsum.lastSet hold
        exact ⟨bn, k, hlast, hvalue.symm.trans hmax⟩
      · rintro ⟨bn, k, hlast, hmax⟩
        obtain ⟨c, hc, hvalue⟩ := hsum.of_lastSet hlast
        exact ⟨c, hc, hvalue.trans hmax⟩
    unsigned := fun x h => dispatch_unsigned _ h
    failing := fun x e s h => dispatch_atomic x _ e s h }

end SwarmBase.Template
