import SwarmBase.Framework.Cut
import SwarmBase.Ui.Movement

/-!
# The plane

In exact arithmetic a `Vec` is a point of the Euclidean plane: the operations of `lib/utils.ts` are
those of an inner product space, `Math.hypot` is its norm, and `limit` cuts a vector to a length
(`Framework.cut`).
-/

namespace SwarmBase

open Framework

theorem Vec.ext {a b : Vec ℝ} (hx : a.x = b.x) (hy : a.y = b.y) : a = b := by
  cases a; cases b; congr

/-! ### The structure -/

noncomputable instance : Zero (Vec ℝ) := ⟨Vec.zero⟩

noncomputable instance : Add (Vec ℝ) := ⟨Vec.add⟩

noncomputable instance : Sub (Vec ℝ) := ⟨Vec.sub⟩

noncomputable instance : Neg (Vec ℝ) := ⟨fun a => ⟨-a.x, -a.y⟩⟩

noncomputable instance : AddCommGroup (Vec ℝ) where
  nsmul := nsmulRec
  zsmul := zsmulRec
  add_assoc a b c := Vec.ext (add_assoc a.x b.x c.x) (add_assoc a.y b.y c.y)
  zero_add a := Vec.ext (zero_add a.x) (zero_add a.y)
  add_zero a := Vec.ext (add_zero a.x) (add_zero a.y)
  add_comm a b := Vec.ext (add_comm a.x b.x) (add_comm a.y b.y)
  neg_add_cancel a := Vec.ext (neg_add_cancel a.x) (neg_add_cancel a.y)
  sub_eq_add_neg a b := Vec.ext (sub_eq_add_neg a.x b.x) (sub_eq_add_neg a.y b.y)

noncomputable instance : Module ℝ (Vec ℝ) where
  smul s a := a.scale s
  one_smul a := Vec.ext (mul_one a.x) (mul_one a.y)
  mul_smul s t a := Vec.ext (by change a.x * (s * t) = a.x * t * s; ring)
    (by change a.y * (s * t) = a.y * t * s; ring)
  smul_zero s := Vec.ext (zero_mul s) (zero_mul s)
  smul_add s a b := Vec.ext (add_mul a.x b.x s) (add_mul a.y b.y s)
  add_smul s t a := Vec.ext (mul_add a.x s t) (mul_add a.y s t)
  zero_smul a := Vec.ext (mul_zero a.x) (mul_zero a.y)

noncomputable instance : InnerProductSpace.Core ℝ (Vec ℝ) where
  inner a b := a.x * b.x + a.y * b.y
  conj_inner_symm a b := by
    change b.x * a.x + b.y * a.y = a.x * b.x + a.y * b.y
    ring
  re_inner_nonneg a := add_nonneg (mul_self_nonneg a.x) (mul_self_nonneg a.y)
  add_left a b c := by
    change (a.x + b.x) * c.x + (a.y + b.y) * c.y = a.x * c.x + a.y * c.y + (b.x * c.x + b.y * c.y)
    ring
  smul_left a b s := by
    change a.x * s * b.x + a.y * s * b.y = s * (a.x * b.x + a.y * b.y)
    ring
  definite a h := by
    have hsq : a.x * a.x + a.y * a.y = 0 := h
    obtain ⟨hx, hy⟩ :=
      (add_eq_zero_iff_of_nonneg (mul_self_nonneg a.x) (mul_self_nonneg a.y)).mp hsq
    exact Vec.ext (mul_self_eq_zero.mp hx) (mul_self_eq_zero.mp hy)

noncomputable instance : NormedAddCommGroup (Vec ℝ) :=
  InnerProductSpace.Core.toNormedAddCommGroup (𝕜 := ℝ)

noncomputable instance : InnerProductSpace ℝ (Vec ℝ) := InnerProductSpace.ofCore inferInstance

/-! ### The operations of `lib/utils.ts` -/

namespace Vec

variable {a b : Vec ℝ}

theorem zero_eq : (Vec.zero : Vec ℝ) = 0 := rfl

theorem add_eq (a b : Vec ℝ) : a.add b = a + b := rfl

theorem sub_eq (a b : Vec ℝ) : a.sub b = a - b := rfl

theorem scale_eq (a : Vec ℝ) (s : ℝ) : a.scale s = s • a := rfl

@[simp] theorem zero_x : (0 : Vec ℝ).x = 0 := rfl

@[simp] theorem zero_y : (0 : Vec ℝ).y = 0 := rfl

@[simp] theorem add_x (a b : Vec ℝ) : (a + b).x = a.x + b.x := rfl

@[simp] theorem add_y (a b : Vec ℝ) : (a + b).y = a.y + b.y := rfl

@[simp] theorem sub_x (a b : Vec ℝ) : (a - b).x = a.x - b.x := rfl

@[simp] theorem sub_y (a b : Vec ℝ) : (a - b).y = a.y - b.y := rfl

@[simp] theorem smul_x (s : ℝ) (a : Vec ℝ) : (s • a).x = s * a.x := mul_comm a.x s

@[simp] theorem smul_y (s : ℝ) (a : Vec ℝ) : (s • a).y = s * a.y := mul_comm a.y s

theorem norm_eq (a : Vec ℝ) : a.norm = ‖a‖ := by
  change √(a.x ^ 2 + a.y ^ 2) = √(a.x * a.x + a.y * a.y)
  rw [sq, sq]

theorem hypot_sub (a b : Vec ℝ) : JsArith.hypot (a.x - b.x) (a.y - b.y) = ‖a - b‖ :=
  norm_eq (a - b)

theorem limit_eq (v : Vec ℝ) (max : ℝ) : v.limit max = cut max v := by
  unfold limit cut
  rw [norm_eq]
  rfl

theorem falsy_iff (n : ℝ) : falsy n = true ↔ n = 0 := by
  change (decide (n = 0) || !decide (n = n)) = true ↔ n = 0
  simp

/-- `normalize` takes zero to zero. -/
theorem normalize_eq (a : Vec ℝ) : a.normalize = ‖a‖⁻¹ • a := by
  unfold normalize
  rw [norm_eq]
  by_cases ha : ‖a‖ = 0
  · obtain rfl := norm_eq_zero.mp ha
    rw [if_pos ((falsy_iff _).mpr ha)]
    refine ext ?_ ?_ <;> simp
  · rw [if_neg (mt (falsy_iff _).mp ha)]
    refine ext ?_ ?_
    · rw [smul_x]
      exact div_eq_inv_mul a.x ‖a‖
    · rw [smul_y]
      exact div_eq_inv_mul a.y ‖a‖

end Vec
end SwarmBase
