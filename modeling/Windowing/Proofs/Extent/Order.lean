import Windowing.Proofs.Binary.Order
import Windowing.Proofs.Extent.Cells

/-!
# Sums, products and quotients of extents

Numbers that are not below zero, infinity included, are closed under what is done with them along
the scroll axis: sums (`IsClamped.add`), products with and quotients by an item size
(`IsClamped.mul`, `IsClamped.div`), and counts as floats (`isClamped_toFloat`). Adding an extent
and taking it away again are both rounded, but to the same side: if a sum falls short of a
position, then the difference does not (`le_sub_of_add_lt`).
-/

namespace Windowing

namespace Extent

open Binary Float.Model Float.Model.UnpackedFloat

variable {x y z : Float}

theorem parts_ofParts_infinity :
    parts (ofParts (.infinity .positive)) = .infinity .positive :=
  @parts_ofParts (.infinity .positive) trivial trivial

theorem isClamped_of_infinity (h : parts x = .infinity .positive) : IsClamped x := by
  refine ⟨?_, ?_⟩
  · show (parts x).isNaN = false
    rw [h]
    rfl
  · rw [lt_iff_parts, h]
    intro hlt
    cases hlt

theorem IsClamped.finite_or_infinite (h : IsClamped x) :
    (x.isFinite = true ∧ 0 ≤ value x) ∨ parts x = .infinity .positive := by
  rcases finite_or_infinity h.1 with hfin | ⟨s, hs⟩
  · exact Or.inl ⟨hfin, (isClamped_iff hfin).mp h⟩
  · cases s with
    | positive => exact Or.inr hs
    | negative =>
        have hpos := h.2
        rw [lt_iff_parts, hs] at hpos
        exact absurd rfl hpos

theorem isClamped_iff_extended (hx : x.isNaN = false) : IsClamped x ↔ 0 ≤ extended x := by
  have hzero : extended 0.0 = 0 := extended_of_finite rfl
  rw [IsClamped, lt_iff_extended hx rfl, hzero, not_lt]
  exact and_iff_right hx

theorem IsClamped.le_refl (hx : IsClamped x) : x ≤ x := by
  rw [le_iff_extended hx.1 hx.1]

theorem IsClamped.finite_of_le (hx : IsClamped x) (hy : y.isFinite = true) (hle : x ≤ y) :
    x.isFinite = true ∧ value x ≤ value y := by
  rw [le_iff_extended hx.1 (isNaN_of_isFinite hy), extended_of_finite hy] at hle
  rcases hx.finite_or_infinite with ⟨hfin, -⟩ | hinf
  · rw [extended_of_finite hfin] at hle
    exact ⟨hfin, EReal.coe_le_coe_iff.mp hle⟩
  · rw [extended, hinf] at hle
    exact absurd hle (not_le.mpr (EReal.coe_lt_top _))

theorem isClamped_of_rounds {q : ℝ} (h : Rounds q x) (hq : 0 ≤ q) : IsClamped x := by
  have hzero : extended 0.0 = 0 := extended_of_finite rfl
  rw [isClamped_iff_extended h.isNaN_eq_false, ← hzero]
  exact h.le_extended rfl hq

/-! ## Operations -/

theorem isClamped_toFloat (n : ℕ) : IsClamped (Count.toFloat n) :=
  isClamped_of_rounds (toFloat_rounds n) (Nat.cast_nonneg n)

theorem isClamped_positivePart (x : Float) : IsClamped (positivePart x) := by
  unfold positivePart
  split
  · rename_i h
    obtain ⟨hzero, hx⟩ := isNaN_of_lt h
    rw [lt_iff_extended hzero hx] at h
    exact (isClamped_iff_extended hx).mpr h.le
  · exact isClamped_zero

theorem add_infinity {x y : Float} (hx : IsClamped x) (hy : parts y = .infinity .positive) :
    parts (x + y) = .infinity .positive ∧ parts (y + x) = .infinity .positive := by
  have hsum : parts (x + y) = parts (ofParts (.add .binary64 (parts x) (parts y))) := rfl
  have hsum' : parts (y + x) = parts (ofParts (.add .binary64 (parts y) (parts x))) := rfl
  have hinf := parts_ofParts_infinity
  rw [hsum, hsum', hy]
  rcases hx.finite_or_infinite with ⟨hfin, -⟩ | hxinf
  · rcases parts_of_isFinite hfin with ⟨s, hp⟩ | ⟨s, m, e, hm, hp⟩ <;> rw [hp] <;>
      exact ⟨hinf, hinf⟩
  · rw [hxinf]
    exact ⟨hinf, hinf⟩

theorem IsClamped.add (hx : IsClamped x) (hy : IsClamped y) : IsClamped (x + y) := by
  rcases hx.finite_or_infinite with ⟨hxfin, hxval⟩ | hxinf
  · rcases hy.finite_or_infinite with ⟨hyfin, hyval⟩ | hyinf
    · exact isClamped_of_rounds (add_rounds hxfin hyfin) (add_nonneg hxval hyval)
    · exact isClamped_of_infinity (add_infinity hx hyinf).1
  · exact isClamped_of_infinity (add_infinity hy hxinf).2

theorem IsClamped.mul (hx : IsClamped x) (hy : isItemSize y = true) : IsClamped (x * y) := by
  obtain ⟨hyfin, hypos⟩ := Bool.and_eq_true_iff.mp hy
  have hyval : 0 < value y := (isItemSize_iff hyfin).mp hy
  rcases hx.finite_or_infinite with ⟨hxfin, hxval⟩ | hxinf
  · exact isClamped_of_rounds (mul_rounds hxfin hyfin) (mul_nonneg hxval hyval.le)
  · obtain ⟨m, e, hm, hp⟩ := parts_of_isItemSize hy
    refine isClamped_of_infinity ?_
    show parts (ofParts (.mul .binary64 (parts x) (parts y))) = _
    rw [hxinf, hp]
    exact parts_ofParts_infinity

theorem infinity_div (hx : parts x = .infinity .positive) (hy : isItemSize y = true) :
    parts (x / y) = .infinity .positive := by
  obtain ⟨m, e, hm, hp⟩ := parts_of_isItemSize hy
  show parts (ofParts (.div .binary64 (parts x) (parts y))) = _
  rw [hx, hp]
  exact parts_ofParts_infinity

theorem IsClamped.div (hx : IsClamped x) (hy : isItemSize y = true) : IsClamped (x / y) := by
  obtain ⟨hyfin, hypos⟩ := Bool.and_eq_true_iff.mp hy
  have hyval : 0 < value y := (isItemSize_iff hyfin).mp hy
  rcases hx.finite_or_infinite with ⟨hxfin, hxval⟩ | hxinf
  · exact isClamped_of_rounds (div_rounds hxfin hyfin hyval.ne') (div_nonneg hxval hyval.le)
  · exact isClamped_of_infinity (infinity_div hxinf hy)

theorem infinity_sub (hx : x.isFinite = true) (hz : parts z = .infinity .positive) :
    parts (z - x) = .infinity .positive := by
  show parts (ofParts (.sub .binary64 (parts z) (parts x))) = _
  rcases parts_of_isFinite hx with ⟨s, hp⟩ | ⟨s, m, e, hm, hp⟩ <;> rw [hz, hp] <;>
    exact parts_ofParts_infinity

/-- What falls short of a position when an extent is added does not pass the position when the
extent is taken away from it. -/
theorem le_sub_of_add_lt (hx : IsClamped x) (hy : IsClamped y) (h : x + y < z) :
    (z - y).isNaN = false ∧ x ≤ z - y := by
  obtain ⟨hsum, hz⟩ := isNaN_of_lt h
  rw [lt_iff_extended hsum hz] at h
  have hshort (hw : parts (x + y) = .infinity .positive) : False := by
    rw [extended, hw] at h
    exact absurd h not_top_lt
  rcases hx.finite_or_infinite with ⟨hxfin, hxval⟩ | hxinf
  · rcases hy.finite_or_infinite with ⟨hyfin, hyval⟩ | hyinf
    · have hpos := (isClamped_iff_extended hsum).mp (hx.add hy)
      rcases IsClamped.finite_or_infinite
        ((isClamped_iff_extended hz).mpr (hpos.trans h.le)) with ⟨hzfin, -⟩ | hzinf
      · have hdiff := sub_rounds hzfin hyfin
        refine ⟨hdiff.isNaN_eq_false, (le_iff_extended hx.1 hdiff.isNaN_eq_false).mpr ?_⟩
        refine hdiff.le_extended hxfin (le_sub_iff_add_le.mpr ?_)
        by_contra hlt
        exact absurd ((add_rounds hxfin hyfin).le_extended hzfin (not_le.mp hlt).le)
          (not_le.mpr h)
      · have hinf := infinity_sub hyfin hzinf
        have hnumber := (isClamped_of_infinity hinf).1
        have htop : extended (z - y) = ⊤ := congrArg extendedOf hinf
        exact ⟨hnumber, (le_iff_extended hx.1 hnumber).mpr (htop ▸ le_top)⟩
    · exact (hshort (add_infinity hx hyinf).1).elim
  · exact (hshort (add_infinity hy hxinf).2).elim

end Extent

end Windowing
