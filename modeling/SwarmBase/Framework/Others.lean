import Mathlib.Algebra.BigOperators.Group.List.Basic
import Mathlib.Data.List.Nodup
import Mathlib.Data.List.Perm.Basic

/-!
# One element of a list and the others

Two uses of a list of which one element is singled out.

A bag of outstanding things, any of which can be taken next: `perm_cons_eraseIdx`,
`countP_eraseIdx`, `sum_map_eraseIdx` and `filterMap_eraseIdx` relate the bag to what is left of it,
`countP_set` to the bag in which the thing has made way for another, `exists_eraseIdx_filterMap` to
what is selected from it.

A loop over a list whose elements carry keys, which skips the element it is run for and adds up
what the others contribute: `foldl_skip` and `foldl_skip_add` are its result. With distinct keys,
two elements that contribute the same see the same others up to order (`map_others_perm`), since
each sees the other in its own place. What the elements contribute to each other cancels out if it
does so for every two of them (`sum_pairs_eq_zero`).
-/

namespace Framework

section Bag

variable {α : Type} {l : List α} {i : ℕ} {a : α}

theorem perm_cons_eraseIdx (h : l[i]? = some a) : l.Perm (a :: l.eraseIdx i) := by
  obtain ⟨hi, rfl⟩ := List.getElem?_eq_some_iff.mp h
  exact (List.getElem_cons_eraseIdx_perm hi).symm

theorem countP_eraseIdx (h : l[i]? = some a) (p : α → Bool) :
    (l.eraseIdx i).countP p + (if p a then 1 else 0) = l.countP p := by
  rw [(perm_cons_eraseIdx h).countP_eq p, List.countP_cons]

/-- What is counted in a bag one of whose elements is exchanged. -/
theorem countP_set (h : l[i]? = some a) (b : α) (p : α → Bool) :
    (l.set i b).countP p + (if p a then 1 else 0) = l.countP p + if p b then 1 else 0 := by
  obtain ⟨hi, rfl⟩ := List.getElem?_eq_some_iff.mp h
  rw [List.countP_set hi, Nat.add_right_comm]
  -- the element that goes was counted
  have hle : (if p l[i] then 1 else 0) ≤ l.countP p := by
    rw [← countP_eraseIdx h p]
    exact Nat.le_add_left _ _
  rw [Nat.sub_add_cancel hle]

/-- What the elements of a bag weigh, one of them aside. -/
theorem sum_map_eraseIdx {M : Type} [AddCommMonoid M] (h : l[i]? = some a) (f : α → M) :
    ((l.eraseIdx i).map f).sum + f a = (l.map f).sum := by
  rw [((perm_cons_eraseIdx h).map f).sum_eq, List.map_cons, List.sum_cons, add_comm]

theorem filterMap_singleton {β : Type} (f : α → Option β) (a : α) :
    [a].filterMap f = (f a).toList := by
  cases h : f a with
  | none => rw [List.filterMap_cons_none h]; rfl
  | some b => rw [List.filterMap_cons_some h]; rfl

/-- What is selected from a bag is what is selected from one of its elements and from the rest. -/
theorem filterMap_eraseIdx {β : Type} (h : l[i]? = some a) (f : α → Option β) :
    (l.filterMap f).Perm ((f a).toList ++ (l.eraseIdx i).filterMap f) := by
  rw [← filterMap_singleton, ← List.filterMap_append]
  exact (perm_cons_eraseIdx h).filterMap f

/-- What is selected is a bag of its own: an element that is selected can be taken there. -/
theorem exists_eraseIdx_filterMap {β : Type} {f : α → Option β} {b : β} (h : l[i]? = some a)
    (hf : f a = some b) : ∃ j, (l.filterMap f)[j]? = some b ∧
      (l.eraseIdx i).filterMap f = (l.filterMap f).eraseIdx j := by
  obtain ⟨hi, ha⟩ := List.getElem?_eq_some_iff.mp h
  -- it is found behind what is selected from the elements in front of it
  have hsplit : l = l.take i ++ a :: l.drop (i + 1) := by
    rw [← ha, List.getElem_cons_drop, List.take_append_drop]
  have hselected : l.filterMap f =
      (l.take i).filterMap f ++ b :: (l.drop (i + 1)).filterMap f := by
    conv_lhs => rw [hsplit]
    rw [List.filterMap_append, List.filterMap_cons_some hf]
  refine ⟨((l.take i).filterMap f).length, ?_, ?_⟩
  · rw [hselected, List.getElem?_append_right (Nat.le_refl _), Nat.sub_self,
      List.getElem?_cons_zero]
  · rw [hselected, List.eraseIdx_append_of_length_le (Nat.le_refl _), Nat.sub_self,
      List.eraseIdx_eq_take_drop_succ, List.filterMap_append]
    rfl

/-- An element that is not selected can be taken unnoticed. -/
theorem filterMap_eraseIdx_of_none {β : Type} {f : α → Option β} (h : l[i]? = some a)
    (hf : f a = none) : (l.eraseIdx i).filterMap f = l.filterMap f := by
  obtain ⟨hi, ha⟩ := List.getElem?_eq_some_iff.mp h
  rw [List.eraseIdx_eq_take_drop_succ, List.filterMap_append]
  conv_rhs => rw [← List.take_append_drop i l, ← List.getElem_cons_drop hi, ha,
    List.filterMap_append, List.filterMap_cons_none hf]

end Bag

variable {α β γ κ : Type} [DecidableEq κ]

/-- The elements with another key than `k`. -/
def others (key : α → κ) (k : κ) (l : List α) : List α := l.filter fun o => key o ≠ k

variable {key : α → κ} {v : α → β} {f : γ → β → γ} {l : List α} {a b : α}

/-- A loop that leaves its result alone at some elements can do without them. -/
theorem foldl_filter_of_skip {f : γ → α → γ} {l : List α} {p : α → Bool}
    (h : ∀ a ∈ l, p a = false → ∀ acc, f acc a = acc) (init : γ) :
    (l.filter p).foldl f init = l.foldl f init := by
  induction l generalizing init with
  | nil => rfl
  | cons a l ih =>
    obtain ⟨ha, hl⟩ := List.forall_mem_cons.mp h
    cases hp : p a with
    | false => rw [List.filter_cons_of_neg (by simp [hp]), ih hl, List.foldl_cons, ha hp]
    | true => rw [List.filter_cons_of_pos hp, List.foldl_cons, List.foldl_cons, ih hl]

/-- The loop runs over the others. -/
theorem foldl_skip (key : α → κ) (v : α → β) (f : γ → β → γ) (k : κ) (l : List α) (init : γ) :
    l.foldl (fun acc o => if key o = k then acc else f acc (v o)) init =
      ((others key k l).map v).foldl f init := by
  unfold others
  -- both sides are one fold over the whole list, and agree turn by turn
  rw [List.foldl_map, List.foldl_filter]
  congr 1
  funext acc o
  by_cases h : key o = k <;> simp [h]

theorem perm_cons_others (hnodup : (l.map key).Nodup) (ha : a ∈ l) :
    l.Perm (a :: others key (key a) l) := by
  classical
  have hother : l.erase a = others key (key a) l := by
    rw [hnodup.of_map.erase_eq_filter]
    refine List.filter_congr fun o ho => ?_
    -- distinct elements have distinct keys
    have hiff : key o = key a ↔ o = a :=
      ⟨List.inj_on_of_nodup_map hnodup ho ha, congrArg key⟩
    rw [Bool.eq_iff_iff, bne_iff_ne, decide_eq_true_iff, ne_eq, ne_eq, hiff]
  rw [← hother]
  exact List.perm_cons_erase ha

/-- Two elements that contribute the same have others that contribute the same. -/
theorem map_others_perm (hnodup : (l.map key).Nodup) (ha : a ∈ l) (hb : b ∈ l) (hv : v a = v b) :
    ((others key (key a) l).map v).Perm ((others key (key b) l).map v) := by
  have hall : (v a :: (others key (key a) l).map v).Perm (v a :: (others key (key b) l).map v) :=
    calc List.Perm (v a :: (others key (key a) l).map v) (l.map v) :=
          ((perm_cons_others hnodup ha).map v).symm
      List.Perm _ (v b :: (others key (key b) l).map v) := (perm_cons_others hnodup hb).map v
      _ = v a :: (others key (key b) l).map v := by rw [hv]
  -- take the same contribution off on both sides
  exact hall.cons_inv

section Sums

/-- A loop that adds up what the others contribute. -/
theorem foldl_skip_add {M : Type} [AddCommMonoid M] (key : α → κ) (g : α → M) (k : κ) (l : List α) :
    l.foldl (fun acc o => if key o = k then acc else acc + g o) 0 =
      ((others key k l).map g).sum := by
  rw [foldl_skip, List.sum_eq_foldl]

theorem sum_map_ite_zero {M : Type} [AddCommMonoid M] (p : α → Prop) [DecidablePred p] (g : α → M)
    (l : List α) : (l.map fun a => if p a then g a else 0).sum = ((l.filter p).map g).sum := by
  rw [List.sum_map_ite, List.sum_map_zero, add_zero]

/-- What the elements of a list contribute to each other cancels out, if what every two of them
contribute does. -/
theorem sum_pairs_eq_zero {G : Type} [AddCommGroup G] {f : α → α → G} (hself : ∀ a, f a a = 0)
    (hpair : ∀ a b, f a b + f b a = 0) (l : List α) :
    (l.map fun a => (l.map (f a)).sum).sum = 0 := by
  induction l with
  | nil => rfl
  | cons a l ih =>
    -- the pairs with `a`, in both directions, and the pairs of the others
    have hrow : ((a :: l).map (f a)).sum = (l.map (f a)).sum := by
      rw [List.map_cons, List.sum_cons, hself, zero_add]
    have hrows : (l.map fun b => ((a :: l).map (f b)).sum).sum = (l.map fun b => f b a).sum := by
      simp only [List.map_cons, List.sum_cons]
      rw [List.sum_map_add, ih, add_zero]
    rw [List.map_cons, List.sum_cons, hrow, hrows, ← List.sum_map_add]
    simp only [hpair, List.sum_map_zero]

end Sums

end Framework
