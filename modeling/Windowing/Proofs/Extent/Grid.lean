import Windowing.Proofs.Binary.Order
import Windowing.Proofs.Binary.Quotient
import Windowing.Proofs.Extent.Cells

/-!
# Positions on a grid

Whole numbers, and numbers with the same few binary digits behind the point, are reckoned with as
if there were no rounding: a float that is on the grid with `k` digits (`OnGrid`) is so many units
of `2 ^ (-k)`, and sums, differences and products of such floats are exact up to `2 ^ 53` units
(`OnGrid.add`, `OnGrid.sub`, `OnGrid.mul`). A quotient is rounded, but has the floor and the
ceiling that the units have (`OnGrid.floorIndex_div`, `OnGrid.ceilIndex_div`). Halving a size
takes one digit more (`OnGrid.half`).
-/

namespace Windowing

namespace Extent

open Binary

/-- The float stands for `m` units with `k` binary digits behind the point. -/
def OnGrid (k : ℕ) (x : Float) (m : ℤ) : Prop := x.isFinite = true ∧ value x = scaled m (-k)

/-- The float stands for the whole number `n`. -/
def IsWhole (x : Float) (n : ℕ) : Prop := x.isFinite = true ∧ value x = n

variable {k : ℕ} {x y : Float} {m n : ℤ}

theorem OnGrid.value_eq (h : OnGrid k x m) : value x = m / 2 ^ k := h.2.trans (scaled_neg m k)

theorem onGrid_of_value (hx : x.isFinite = true) (h : value x = m / 2 ^ k) : OnGrid k x m :=
  ⟨hx, h.trans (scaled_neg m k).symm⟩

theorem IsWhole.onGrid {n : ℕ} (h : IsWhole x n) : OnGrid 0 x n :=
  onGrid_of_value h.1 (by rw [h.2, pow_zero, div_one, Int.cast_natCast])

theorem isWhole_toFloat {n : ℕ} (h : n ≤ 2 ^ 53) : IsWhole (Count.toFloat n) n :=
  toFloat_exact h

theorem isWhole_zero : IsWhole 0.0 0 := ⟨rfl, Nat.cast_zero.symm⟩

theorem IsWhole.isClamped {n : ℕ} (h : IsWhole x n) : IsClamped x := by
  rw [isClamped_iff h.1, h.2]
  exact Nat.cast_nonneg n

theorem onGrid_of_rounds (h : Rounds (m / 2 ^ k) x) (hm : |m| ≤ 2 ^ 53) (hk : k ≤ 1074) :
    OnGrid k x m := by
  refine (h.value_eq (representable_intCast_div_two_pow hm hk) ?_).elim onGrid_of_value
  have hm' : |(m : ℝ)| ≤ 2 ^ 53 := by exact_mod_cast hm
  rw [abs_div, abs_of_pos (a := (2 : ℝ) ^ k) (by positivity)]
  calc |(m : ℝ)| / 2 ^ k ≤ |(m : ℝ)| := div_le_self (abs_nonneg _) (one_le_pow₀ one_le_two)
    _ ≤ 2 ^ 53 := hm'
    _ ≤ 2 ^ 1023 := pow_le_pow_right₀ one_le_two (by norm_num)

namespace OnGrid

/-! ## Operations -/

theorem add (hx : OnGrid k x m) (hy : OnGrid k y n) (hk : k ≤ 1074) (h : |m + n| ≤ 2 ^ 53) :
    OnGrid k (x + y) (m + n) := by
  have hrounds := add_rounds hx.1 hy.1
  rw [hx.value_eq, hy.value_eq, ← add_div, ← Int.cast_add] at hrounds
  exact onGrid_of_rounds hrounds h hk

theorem sub (hx : OnGrid k x m) (hy : OnGrid k y n) (hk : k ≤ 1074) (h : |m - n| ≤ 2 ^ 53) :
    OnGrid k (x - y) (m - n) := by
  have hrounds := sub_rounds hx.1 hy.1
  rw [hx.value_eq, hy.value_eq, ← sub_div, ← Int.cast_sub] at hrounds
  exact onGrid_of_rounds hrounds h hk

theorem mul (hx : OnGrid 0 x m) (hy : OnGrid k y n) (hk : k ≤ 1074) (h : |m * n| ≤ 2 ^ 53) :
    OnGrid k (x * y) (m * n) := by
  have hrounds := mul_rounds hx.1 hy.1
  rw [hx.value_eq, hy.value_eq, pow_zero, div_one, ← mul_div_assoc, ← Int.cast_mul] at hrounds
  exact onGrid_of_rounds hrounds h hk

/-- A finer grid has twice as many units. -/
theorem refine (h : OnGrid k x m) : OnGrid (k + 1) x (2 * m) := by
  refine onGrid_of_value h.1 ?_
  rw [h.value_eq, pow_succ']
  push_cast
  rw [mul_div_mul_left _ _ two_ne_zero]

theorem half (h : OnGrid k x m) (hk : k < 1074) (hm : |m| ≤ 2 ^ 53) :
    OnGrid (k + 1) (x / 2.0) m := by
  have htwo : IsWhole 2.0 2 := isWhole_toFloat (n := 2) (by norm_num)
  have hrounds := div_rounds h.1 htwo.1 (by rw [htwo.2]; norm_num)
  rw [h.value_eq, htwo.2, div_div, Nat.cast_ofNat, ← pow_succ] at hrounds
  exact onGrid_of_rounds hrounds hm hk

/-! ## Comparisons -/

theorem lt_iff (hx : OnGrid k x m) (hy : OnGrid k y n) : x < y ↔ m < n := by
  rw [lt_iff_value_lt hx.1 hy.1, hx.value_eq, hy.value_eq,
    div_lt_div_iff_of_pos_right (by positivity)]
  exact Int.cast_lt

theorem isNaN_eq_false (h : OnGrid k x m) : x.isNaN = false := isNaN_of_isFinite h.1

theorem le_iff (hx : OnGrid k x m) (hy : OnGrid k y n) : x ≤ y ↔ m ≤ n := by
  rw [← not_lt_iff_le hy.isNaN_eq_false hx.isNaN_eq_false, hy.lt_iff hx, not_lt]

theorem congr_beq (h : OnGrid k x m) (hbeq : (y == x) = true) : OnGrid k y m := by
  rcases (beq_iff_same.mp hbeq).1 with rfl | ⟨⟨s, hs⟩, ⟨t, ht⟩⟩
  · exact h
  · refine ⟨?_, h.2 ▸ ?_⟩
    · show (parts y).isFinite = true
      rw [hs]
      rfl
    · rw [value, value, hs, ht]
      rfl

theorem isClamped_iff (h : OnGrid k x m) : IsClamped x ↔ 0 ≤ m := by
  rw [Extent.isClamped_iff h.1, h.value_eq, le_div_iff₀ (by positivity), zero_mul]
  exact Int.cast_nonneg_iff

theorem zero (k : ℕ) : OnGrid k 0.0 0 :=
  onGrid_of_value rfl (by rw [value_zero, Int.cast_zero, zero_div])

theorem clamp (h : OnGrid k x m) : OnGrid k (clamp x) (max m 0) := by
  by_cases hx : IsClamped x
  · rw [hx.clamp_eq, max_eq_left (h.isClamped_iff.mp hx)]
    exact h
  · have hclamp : Extent.clamp x = 0.0 := by
      rw [IsClamped, not_and_or, not_not, Bool.not_eq_false] at hx
      refine if_pos ?_
      rwa [Bool.or_eq_true, decide_eq_true_iff]
    rw [hclamp, max_eq_right (not_le.mp (mt h.isClamped_iff.mpr hx)).le]
    exact zero k

theorem clamp_of_eq {a : ℕ} (h : OnGrid k x m) (ha : max m 0 = a) : OnGrid k (Extent.clamp x) a :=
  ha ▸ h.clamp

theorem positivePart (h : OnGrid k x m) : OnGrid k (positivePart x) (max m 0) := by
  unfold Extent.positivePart
  split
  · rename_i hx
    rw [max_eq_left (((zero k).lt_iff h).mp hx).le]
    exact h
  · rename_i hx
    rw [max_eq_right (not_lt.mp (mt ((zero k).lt_iff h).mpr hx))]
    exact zero k

/-! ## Cells -/

section

variable {s e : ℕ}

/-- The unit cancels, so what is rounded is a quotient of whole numbers. -/
theorem nearest_div (hx : OnGrid k x s) (hy : OnGrid k y e) (hs : s ≤ 2 ^ 53) (he : 0 < e) :
    (x / y).isFinite = true ∧ Nearest ((s : ℝ) / e) (value (x / y)) := by
  have he1 : (1 : ℝ) ≤ e := by exact_mod_cast he
  have hs' : (s : ℝ) ≤ 2 ^ 53 := by exact_mod_cast hs
  have hne : value y ≠ 0 := by
    rw [hy.value_eq, Int.cast_natCast]
    positivity
  have hrounds := div_rounds hx.1 hy.1 hne
  rw [hx.value_eq, hy.value_eq, div_div_div_cancel_right₀ (by positivity), Int.cast_natCast,
    Int.cast_natCast] at hrounds
  refine hrounds.nearest ?_
  rw [abs_of_nonneg (by positivity)]
  calc (s : ℝ) / e ≤ s := div_le_self (Nat.cast_nonneg s) he1
    _ ≤ 2 ^ 53 := hs'
    _ ≤ 2 ^ 1023 := pow_le_pow_right₀ one_le_two (by norm_num)

theorem nearest_div_nonneg {r : ℝ} (h : Nearest ((s : ℝ) / e) r) : 0 ≤ r := by
  have hzero : Representable ((0 : ℕ) : ℝ) := representable_natCast (by norm_num)
  rw [Nat.cast_zero] at hzero
  exact h.ge_of_ge hzero (by positivity)

theorem floorIndex_div (hx : OnGrid k x s) (hy : OnGrid k y e) (hs : s ≤ 2 ^ 53) (he : 0 < e) :
    floorIndex (x / y) = s / e := by
  obtain ⟨hfin, hnear⟩ := hx.nearest_div hy hs he
  rw [floorIndex_eq hfin (nearest_div_nonneg hnear), hnear.floor_quotient hs he]
  have hle := Nat.div_le_self s e
  have hlimit : Count.limit = 2 ^ 64 - 1 := rfl
  omega

theorem ceilIndex_div (hx : OnGrid k x s) (hy : OnGrid k y e) (hs : s ≤ 2 ^ 53) (he : 0 < e)
    (he53 : e ≤ 2 ^ 53) : ceilIndex (x / y) = (s + e - 1) / e := by
  obtain ⟨hfin, hnear⟩ := hx.nearest_div hy hs he
  rw [ceilIndex_eq hfin (nearest_div_nonneg hnear), hnear.ceil_quotient hs he he53]
  have hle := Nat.div_le_self (s + e - 1) e
  have hlimit : Count.limit = 2 ^ 64 - 1 := rfl
  omega

end

end OnGrid

end Extent

end Windowing
