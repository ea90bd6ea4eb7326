import Windowing.Proofs.Binary.TakingBack
import Windowing.Proofs.Extent.Grid
import Windowing.Proofs.Extent.Order

/-!
# Multiples of an item size

Cell `i` starts at `i` times the item size. Which cell that position is found in again depends on
how far the multiple was rounded (`shortfall`), measured in sizes and compared with half the
distance between the floats next to `i`. Rounded down further than that, the multiple is found in
the cell before (`HasMultiple.floorIndex_of_fallsShort`). Rounded up further, it is found in the
cell after, but only where floats have no digits behind the point
(`HasMultiple.floorIndex_of_overshoots`). Otherwise it is found in cell `i`
(`HasMultiple.floorIndex_of_kept`), and so it is whenever the exact multiple is representable
(`HasMultiple.kept_of_representable`).
-/

namespace Windowing

namespace Extent

open Binary

variable {e : Float} {i : ℕ}

/-- By how many sizes a multiple of a size is rounded down; negative where it is rounded up. -/
noncomputable def shortfall (e : Float) (i : ℕ) : ℝ := i - value (Count.toFloat i * e) / value e

/-- The multiple is rounded down too far for the quotient to be rounded up to `i` again. -/
def FallsShort (e : Float) (i : ℕ) : Prop := halfGap i < shortfall e i

/-- The multiple is rounded up that far, and the next larger quotient is a whole number. -/
def Overshoots (e : Float) (i : ℕ) : Prop := 2 ^ 52 ≤ i ∧ halfGap i < -shortfall e i

/-- There is such a multiple, and the index itself is not rounded. -/
structure HasMultiple (e : Float) (i : ℕ) : Prop where
  size : isItemSize e = true
  small : i < 2 ^ 53
  finite : (Count.toFloat i * e).isFinite = true

theorem representable_of_isWhole {n : ℕ} (he : IsWhole e n) (h : i * n ≤ 2 ^ 53) :
    Representable (i * value e) := by
  rw [he.2, ← Nat.cast_mul]
  exact representable_natCast h

namespace HasMultiple

/-! ## There and back -/

theorem size_finite (h : HasMultiple e i) : e.isFinite = true :=
  (Bool.and_eq_true_iff.mp h.size).1

theorem roundedProduct (h : HasMultiple e i) :
    RoundedProduct i (value e) (value (Count.toFloat i * e)) := by
  obtain ⟨hcount, hvalue⟩ := toFloat_exact h.small.le
  have hproduct := (mul_rounds hcount h.size_finite).nearest_of_isFinite h.finite
  rw [hvalue] at hproduct
  exact ⟨h.small, representable_realOf (canonical_parts e).1,
    (isItemSize_iff h.size_finite).mp h.size, hproduct⟩

theorem quotient (h : HasMultiple e i) :
    (Count.toFloat i * e / e).isFinite = true
      ∧ Nearest (value (Count.toFloat i * e) / value e) (value (Count.toFloat i * e / e)) := by
  refine (div_rounds h.finite h.size_finite h.roundedProduct.pos.ne').nearest ?_
  calc |value (Count.toFloat i * e) / value e| ≤ i + 1 := h.roundedProduct.abs_quotient_le
    _ ≤ 2 ^ 53 := by exact_mod_cast h.small
    _ ≤ 2 ^ 1023 := pow_le_pow_right₀ one_le_two (by norm_num)

theorem takenBack (h : HasMultiple e i) :
    TakenBack i (value e) (value (Count.toFloat i * e)) (value (Count.toFloat i * e / e)) :=
  ⟨h.roundedProduct, h.quotient.2⟩

/-! ## The cell -/

theorem floorIndex_eq_floor (h : HasMultiple e i) :
    floorIndex (Count.toFloat i * e / e) = ⌊value (Count.toFloat i * e / e)⌋₊ := by
  have hfin := h.quotient.1
  have hclamped : IsClamped (Count.toFloat i * e / e) :=
    ((isClamped_toFloat i).mul h.size).div h.size
  have hlimit : Count.limit = 2 ^ 64 - 1 := rfl
  have hsmall := h.small
  have hfloor : ⌊value (Count.toFloat i * e / e)⌋₊ ≤ i + 1 :=
    Nat.floor_le_of_le (by exact_mod_cast h.takenBack.le_add_one)
  rw [floorIndex_eq hfin ((isClamped_iff hfin).mp hclamped), min_eq_left (by omega)]

theorem pos_of_fallsShort (h : HasMultiple e i) (hshort : FallsShort e i) : 0 < i :=
  h.takenBack.pos_of_lt (h.takenBack.lt_iff.mpr hshort)

theorem floorIndex_of_fallsShort (h : HasMultiple e i) (hshort : FallsShort e i) :
    floorIndex (Count.toFloat i * e / e) = i - 1 := by
  rw [h.floorIndex_eq_floor]
  exact h.takenBack.floor_of_lt (h.takenBack.lt_iff.mpr hshort)

theorem floorIndex_of_overshoots (h : HasMultiple e i) (hover : Overshoots e i) :
    floorIndex (Count.toFloat i * e / e) = i + 1 := by
  obtain ⟨hlarge, hfar⟩ := hover
  rw [shortfall, neg_sub] at hfar
  have hsucc := h.takenBack.eq_add_one_of_gt hlarge (h.takenBack.gt_iff.mpr hfar)
  rw [h.floorIndex_eq_floor, hsucc]
  exact_mod_cast Nat.floor_natCast (i + 1)

theorem floorIndex_of_kept (h : HasMultiple e i) (hshort : ¬ FallsShort e i)
    (hover : ¬ Overshoots e i) : floorIndex (Count.toFloat i * e / e) = i := by
  have hge := not_lt.mp (mt h.takenBack.lt_iff.mp hshort)
  rw [h.floorIndex_eq_floor]
  rcases lt_or_ge i (2 ^ 52) with hdigits | hlarge
  · exact h.takenBack.floor_of_digits hdigits hge
  · have hle : value (Count.toFloat i * e / e) ≤ i := by
      refine not_lt.mp fun hgt => hover ⟨hlarge, ?_⟩
      rw [shortfall, neg_sub]
      exact h.takenBack.gt_iff.mp hgt
    rw [le_antisymm hle hge, Nat.floor_natCast]

/-- Where the exact multiple is representable, nothing is rounded. -/
theorem kept_of_representable (h : HasMultiple e i) (hrep : Representable (i * value e)) :
    ¬ FallsShort e i ∧ ¬ Overshoots e i := by
  have hzero : shortfall e i = 0 := by
    rw [shortfall, (h.takenBack.of_representable hrep).1,
      mul_div_cancel_right₀ _ h.roundedProduct.pos.ne', sub_self]
  have hgap := halfGap_pos i
  refine ⟨?_, ?_⟩
  · rw [FallsShort, hzero, not_lt]
    exact hgap.le
  · rintro ⟨-, hfar⟩
    rw [hzero, neg_zero] at hfar
    exact absurd hfar (not_lt.mpr hgap.le)

end HasMultiple

end Extent

end Windowing
