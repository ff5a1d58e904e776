import SwarmBase.Framework.Execution

/-!
# The parts of FRAME the pallets use

Dispatch origins with `ensure_signed`, and `BoundedVec`, the vector type of stored queues. A
`BoundedVec` carries its bound as a field, so a stored queue longer than the bound cannot be
built.

A dispatchable is a program in `EStateM`: it reads and writes storage and returns or fails, and
a failing program keeps the writes it made before it failed.
-/

namespace SwarmBase

/-- A dispatch origin (`RawOrigin`). -/
inductive Origin (AccountId : Type) where
  | root
  | signed (who : AccountId)
  | none
  deriving DecidableEq

/-- What a dispatchable fails with: the origin check, or an error of the pallet itself. -/
inductive DispatchError (PalletError : Type) where
  | badOrigin
  | pallet (e : PalletError)
  deriving DecidableEq

namespace Frame

variable {AccountId PalletError σ α : Type}

/-- `ensure_signed`: the signer of a signed origin, `BadOrigin` for every other origin. -/
def ensureSigned : Origin AccountId → EStateM (DispatchError PalletError) σ AccountId
  | .signed who => pure who
  | _ => throw .badOrigin

/-- `ensure!(cond, err)`. -/
def ensure (cond : Prop) [Decidable cond] (err : PalletError) :
    EStateM (DispatchError PalletError) σ Unit :=
  if cond then pure () else throw (.pallet err)

/-- `ok_or(err)?` on an `Option`, and `map_err(|_| err)?` on a `Result` whose error is dropped. -/
def okOr (o : Option α) (err : PalletError) : EStateM (DispatchError PalletError) σ α :=
  match o with
  | some a => pure a
  | none => throw (.pallet err)

end Frame

/-- A vector of at most `M` elements. -/
structure BoundedVec (α : Type) (M : ℕ) where
  toList : List α
  length_le : toList.length ≤ M

namespace BoundedVec

variable {α : Type} {M : ℕ}

theorem ext {v w : BoundedVec α M} (h : v.toList = w.toList) : v = w := by
  cases v; cases w; congr

/-- The default value, which an absent `ValueQuery` item reads as. -/
def empty : BoundedVec α M := ⟨[], Nat.zero_le M⟩

/-- `get(i)`. -/
def get? (v : BoundedVec α M) (i : ℕ) : Option α := v.toList[i]?

/-- `try_push`: append the element, or fail on a full vector. -/
def tryPush (v : BoundedVec α M) (a : α) : Option (BoundedVec α M) :=
  if h : v.toList.length < M then
    some ⟨v.toList ++ [a], by rw [List.length_append, List.length_singleton]; exact h⟩
  else none

/-- `remove(i)`: the elements after position `i` move down by one. -/
def remove (v : BoundedVec α M) (i : ℕ) : BoundedVec α M :=
  ⟨v.toList.eraseIdx i, Nat.le_trans (List.length_eraseIdx_le v.toList i) v.length_le⟩

@[simp] theorem toList_remove (v : BoundedVec α M) (i : ℕ) :
    (v.remove i).toList = v.toList.eraseIdx i := rfl

theorem tryPush_of_lt {v : BoundedVec α M} {a : α} (h : v.toList.length < M) :
    ∃ w, v.tryPush a = some w ∧ w.toList = v.toList ++ [a] :=
  ⟨_, dif_pos h, rfl⟩

theorem tryPush_of_full {v : BoundedVec α M} {a : α} (h : v.toList.length = M) :
    v.tryPush a = none :=
  dif_neg (by omega)

end BoundedVec

end SwarmBase
