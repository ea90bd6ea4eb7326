import Windowing.Proofs.Binary.Arithmetic
import Windowing.Proofs.Extent.Clamping

/-!
# Whole cells before a position

The indexes computed from a position are the floor and the ceiling of the number it
stands for, held at `Count.limit` (`floorIndex_eq`, `ceilIndex_eq`). The ceiling is found
by turning the floor back into a float. That is exact below `2 ^ 53`; from there on floats
have no digits behind the point (`exists_natCast_eq_value`), so nothing has to be added.
-/

namespace Windowing

namespace Extent

open Binary Float.Model Float.Model.UnpackedFloat

variable {x : Float}

/-! ## Clamped numbers -/

theorem value_zero : value 0.0 = 0 := rfl

theorem isClamped_iff (hx : x.isFinite = true) : IsClamped x ↔ 0 ≤ value x := by
  rw [IsClamped, lt_iff_value_lt hx rfl, value_zero, not_lt]
  exact and_iff_right (isNaN_of_isFinite hx)

theorem isItemSize_iff (hx : x.isFinite = true) : isItemSize x = true ↔ 0 < value x := by
  rw [isItemSize, hx, Bool.true_and, decide_eq_true_iff, lt_iff_value_lt rfl hx, value_zero]

/-! ## Floor and ceiling -/

theorem toNat_ofNatClamp (n : ℕ) : (UInt64.ofNatClamp n).toNat = min n Count.limit := by
  unfold UInt64.ofNatClamp Count.limit
  split <;> rw [UInt64.toNat_ofNatLT] <;> omega

theorem floorIndex_eq (hx : x.isFinite = true) (h : 0 ≤ value x) :
    floorIndex x = min ⌊value x⌋₊ Count.limit := by
  have hclamp : floorIndex x = min ((parts x).toInt 0 (UInt64.size - 1)).toNat Count.limit :=
    toNat_ofNatClamp _
  have hfloor : ((parts x).toInt 0 (UInt64.size - 1)).toNat = ⌊value x⌋₊ := by
    rcases parts_of_nonneg hx h with ⟨s, hp⟩ | ⟨m, e, hm, hp⟩
    · rw [value, hp]
      exact Nat.floor_zero.symm
    · rw [value, hp, realOf_positive]
      exact toNat_roundToInt e
  rw [hclamp, hfloor]

theorem exists_natCast_eq_value (hx : x.isFinite = true) (h : 2 ^ 53 ≤ value x) :
    ∃ n : ℕ, value x = n := by
  obtain ⟨hc, -⟩ := canonical_parts x
  rcases parts_of_nonneg hx (h.trans' (by positivity)) with ⟨s, hp⟩ | ⟨m, e, hm, hp⟩
  · rw [value, hp]
    exact ⟨0, Nat.cast_zero.symm⟩
  · rw [hp] at hc
    rw [value, hp, realOf_positive] at h ⊢
    have he : 0 ≤ e := by
      by_contra he
      have hm53 : (m : ℝ) < 2 ^ 53 := by exact_mod_cast hc.1
      have hle : (m : ℝ) * 2 ^ e ≤ m * 1 := by
        gcongr
        exact zpow_le_one_of_nonpos₀ one_le_two (by omega)
      linarith
    obtain ⟨k, rfl⟩ := Int.eq_ofNat_of_zero_le he
    refine ⟨m * 2 ^ k, ?_⟩
    rw [zpow_natCast]
    push_cast
    rfl

theorem ceilIndex_eq (hx : x.isFinite = true) (h : 0 ≤ value x) :
    ceilIndex x = min ⌈value x⌉₊ Count.limit := by
  have hfloor := floorIndex_eq hx h
  have hlimit : Count.limit = 2 ^ 64 - 1 := rfl
  unfold ceilIndex
  rcases lt_or_ge (value x) (2 ^ 53) with hlt | hge
  · have hle : ⌊value x⌋₊ ≤ 2 ^ 53 := Nat.floor_le_of_le (by exact_mod_cast hlt.le)
    rw [min_eq_left (by omega)] at hfloor
    obtain ⟨hfin, hval⟩ := toFloat_exact hle
    simp only [hfloor, lt_iff_value_lt hfin hx, hval]
    split
    · rename_i hcut
      have hceil : ⌈value x⌉₊ = ⌊value x⌋₊ + 1 :=
        le_antisymm (Nat.ceil_le_floor_add_one _) (Nat.lt_ceil.mpr hcut)
      rw [hceil, Count.add]
    · rename_i hwhole
      have hceil : ⌈value x⌉₊ = ⌊value x⌋₊ :=
        le_antisymm (Nat.ceil_le.mpr (not_lt.mp hwhole)) (Nat.floor_le_ceil _)
      rw [hceil, min_eq_left (by omega)]
  · obtain ⟨n, hn⟩ := exists_natCast_eq_value hx hge
    rw [hn, Nat.floor_natCast] at hfloor
    rw [hn, Nat.ceil_natCast]
    rcases le_or_gt n Count.limit with hle | hgt
    · have hrep : Representable n := hn ▸ representable_realOf (canonical_parts x).1
      have hbound : |(n : ℝ)| ≤ 2 ^ 1023 := by
        have h64 : (n : ℝ) ≤ 2 ^ 64 := by exact_mod_cast (by omega : n ≤ 2 ^ 64)
        rw [Nat.abs_cast]
        exact h64.trans (pow_le_pow_right₀ one_le_two (by norm_num))
      obtain ⟨hfin, hval⟩ := (toFloat_rounds n).value_eq hrep hbound
      rw [min_eq_left hle] at hfloor ⊢
      simp only [hfloor, lt_iff_value_lt hfin hx, hval, hn, lt_irrefl, if_false]
    · -- The count is held at the limit whether or not one is added.
      rw [min_eq_right hgt.le] at hfloor ⊢
      simp only [hfloor, Count.add]
      split
      · exact min_eq_right (Nat.le_succ _)
      · rfl

end Extent

end Windowing
