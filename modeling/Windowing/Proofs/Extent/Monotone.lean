import Windowing.Proofs.Extent.Order

/-!
# Positions in order

Whatever is computed from positions along the scroll axis keeps their order: sums
(`IsClamped.add_mono`), quotients by an item size (`IsClamped.div_mono`), and the indexes that
are read off them (`floorIndex_mono`, `ceilIndex_mono`). Two numbers in order are rounded in order,
but that does not help where the exact results are equal. There the operands are the same up to
the sign of a zero, and so are the results.
-/

namespace Windowing

namespace Extent

open Binary Float.Model

variable {x x' y y' : Float}

/-! ## Equal numbers -/

theorem same_of_value_eq (hx : x.isFinite = true) (hy : y.isFinite = true)
    (h : value x = value y) : Same x y := by
  refine (beq_iff_same.mp ((beq_iff_extended ?_ ?_).mpr ?_)).1
  · exact isNaN_of_isFinite hx
  · exact isNaN_of_isFinite hy
  · rw [extended_of_finite hx, extended_of_finite hy, h]

theorem extended_congr (hx : x.isNaN = false) (hy : y.isNaN = false) (h : Same x y) :
    extended x = extended y :=
  (beq_iff_extended hx hy).mp (beq_iff_same.mpr ⟨h, hx⟩)

theorem le_infinity (hx : x.isNaN = false) (hy : parts y = .infinity .positive) : x ≤ y := by
  have htop : extended y = ⊤ := congrArg extendedOf hy
  rw [le_iff_extended hx (isClamped_of_infinity hy).1, htop]
  exact le_top

/-! ## Sums and quotients -/

theorem IsClamped.add_mono (hx : IsClamped x) (hx' : IsClamped x') (hy : IsClamped y)
    (hy' : IsClamped y') (h : x ≤ x') (h' : y ≤ y') : x + y ≤ x' + y' := by
  have hsum := (hx.add hy).1
  have hsum' := (hx'.add hy').1
  rcases hx'.finite_or_infinite with ⟨hxfin', -⟩ | hinf
  · rcases hy'.finite_or_infinite with ⟨hyfin', -⟩ | hinf
    · obtain ⟨hxfin, hxle⟩ := hx.finite_of_le hxfin' h
      obtain ⟨hyfin, hyle⟩ := hy.finite_of_le hyfin' h'
      rw [le_iff_extended hsum hsum']
      rcases (add_le_add hxle hyle).lt_or_eq with hlt | heq
      · exact (add_rounds hxfin hyfin).mono (add_rounds hxfin' hyfin') hlt
      · have hxsame := same_of_value_eq hxfin hxfin' (by linarith)
        have hysame := same_of_value_eq hyfin hyfin' (by linarith)
        exact (extended_congr hsum hsum' (hxsame.add hysame)).le
    · exact le_infinity hsum (add_infinity hx' hinf).1
  · exact le_infinity hsum (add_infinity hy' hinf).2

theorem IsClamped.div_mono (hx : IsClamped x) (hx' : IsClamped x') (hy : isItemSize y = true)
    (h : x ≤ x') : x / y ≤ x' / y := by
  have hquot := (hx.div hy).1
  have hquot' := (hx'.div hy).1
  rcases hx'.finite_or_infinite with ⟨hfin', -⟩ | hinf
  · obtain ⟨hfin, hle⟩ := hx.finite_of_le hfin' h
    obtain ⟨hyfin, hypos⟩ := Bool.and_eq_true_iff.mp hy
    have hyval : 0 < value y := (isItemSize_iff hyfin).mp hy
    rw [le_iff_extended hquot hquot']
    rcases hle.lt_or_eq with hlt | heq
    · refine (div_rounds hfin hyfin hyval.ne').mono (div_rounds hfin' hyfin hyval.ne') ?_
      exact div_lt_div_of_pos_right hlt hyval
    · have hsame := same_of_value_eq hfin hfin' heq
      exact (extended_congr hquot hquot' (hsame.div_left hy)).le
  · exact le_infinity hquot (infinity_div hinf hy)

/-! ## Indexes -/

theorem floorIndex_of_infinity (h : parts x = .infinity .positive) :
    floorIndex x = Count.limit := by
  show (parts x).toUInt64.toNat = Count.limit
  rw [h]
  rfl

theorem ceilIndex_of_infinity (h : parts x = .infinity .positive) :
    ceilIndex x = Count.limit := by
  have hle := floorIndex_le_ceilIndex x
  rw [floorIndex_of_infinity h] at hle
  exact le_antisymm (ceilIndex_le_limit x) hle

theorem floorIndex_mono (hx : IsClamped x) (hy : IsClamped y) (h : x ≤ y) :
    floorIndex x ≤ floorIndex y := by
  rcases hy.finite_or_infinite with ⟨hyfin, hyval⟩ | hinf
  · obtain ⟨hxfin, hle⟩ := hx.finite_of_le hyfin h
    rw [floorIndex_eq hxfin ((isClamped_iff hxfin).mp hx), floorIndex_eq hyfin hyval]
    exact min_le_min_right _ (Nat.floor_mono hle)
  · rw [floorIndex_of_infinity hinf]
    exact floorIndex_le_limit x

theorem ceilIndex_mono (hx : IsClamped x) (hy : IsClamped y) (h : x ≤ y) :
    ceilIndex x ≤ ceilIndex y := by
  rcases hy.finite_or_infinite with ⟨hyfin, hyval⟩ | hinf
  · obtain ⟨hxfin, hle⟩ := hx.finite_of_le hyfin h
    rw [ceilIndex_eq hxfin ((isClamped_iff hxfin).mp hx), ceilIndex_eq hyfin hyval]
    exact min_le_min_right _ (Nat.ceil_mono hle)
  · rw [ceilIndex_of_infinity hinf]
    exact ceilIndex_le_limit x

end Extent

end Windowing
