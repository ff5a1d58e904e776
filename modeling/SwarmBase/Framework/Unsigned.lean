import Mathlib.Algebra.Group.Nat.Defs
import Mathlib.Order.Nat
import Mathlib.Tactic.SplitIfs

/-!
# Unsigned integers with a maximum

The numbers from zero to `Unsigned.max`, in whatever type they are stored. Nothing of the
representation is used but the number that is meant, so what is proved holds at every width.
-/

namespace Framework

/-- A type of the numbers up to `max`. -/
class Unsigned (N : Type) where
  max : ℕ
  toNat : N → ℕ
  toNat_le : ∀ n, toNat n ≤ max
  ofNat : (k : ℕ) → k ≤ max → N
  toNat_ofNat : ∀ k h, toNat (ofNat k h) = k

namespace Unsigned

variable {N : Type} [Unsigned N] {a b c : N}

attribute [simp] toNat_ofNat

/-- `checked_add`: the sum, unless it exceeds the maximum. -/
def checkedAdd (a b : N) : Option N :=
  if h : toNat a + toNat b ≤ max N then some (ofNat (toNat a + toNat b) h) else none

theorem toNat_of_checkedAdd (h : checkedAdd a b = some c) : toNat c = toNat a + toNat b := by
  unfold checkedAdd at h
  split_ifs at h
  obtain rfl := Option.some.inj h
  exact toNat_ofNat _ _

theorem checkedAdd_eq_none_iff : checkedAdd a b = none ↔ max N < toNat a + toNat b := by
  unfold checkedAdd
  rw [dite_eq_right_iff, ← not_le]
  exact ⟨fun h hle => Option.some_ne_none _ (h hle), fun h hle => absurd hle h⟩

end Unsigned

instance : Unsigned UInt32 where
  max := 2 ^ 32 - 1
  toNat := UInt32.toNat
  toNat_le n := Nat.le_sub_one_of_lt n.toNat_lt
  ofNat k _ := UInt32.ofNat k
  toNat_ofNat _ h := UInt32.toNat_ofNat_of_lt' (Nat.lt_of_le_pred (by decide) h)

end Framework
