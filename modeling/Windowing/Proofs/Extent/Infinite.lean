import Windowing.Proofs.Extent.Order

/-!
# Products and quotients with infinity

Infinity times zero is no number, and neither is infinity over infinity. Of numbers that are not
below zero these are the only products and quotients that are none: a product is no number exactly
when it is `Undefined` (`IsClamped.mul_isNaN_iff`), a quotient by something above zero exactly when
both are infinite (`IsClamped.div_isNaN_iff`).
-/

namespace Windowing

namespace Extent

open Binary Float.Model Float.Model.UnpackedFloat

variable {x y : Float}

/-! ## Infinite, zero, or in between -/

theorem extended_eq_top_iff : extended x = ⊤ ↔ parts x = .infinity .positive := by
  constructor
  · intro h
    change extendedOf (parts x) = ⊤ at h
    cases hp : parts x with
    | infinity s =>
        cases s with
        | positive => rfl
        | negative =>
            rw [hp] at h
            exact absurd h bot_ne_top
    | _ =>
        rw [hp] at h
        exact absurd h (EReal.coe_ne_top _)
  · intro h
    exact congrArg extendedOf h

theorem extended_ne_top (h : x.isFinite = true) : extended x ≠ ⊤ := by
  rw [extended_of_finite h]
  exact EReal.coe_ne_top _

theorem isFinite_of_between {a b : ℝ} (hx : x.isNaN = false) (ha : (a : EReal) ≤ extended x)
    (hb : extended x ≤ b) : x.isFinite = true ∧ a ≤ value x ∧ value x ≤ b := by
  have hfin : x.isFinite = true := by
    refine (finite_or_infinity hx).resolve_right ?_
    rintro ⟨s, hs⟩
    rw [extended, hs] at ha hb
    cases s with
    | positive => exact absurd hb (not_le.mpr (EReal.coe_lt_top b))
    | negative => exact absurd ha (not_le.mpr (EReal.bot_lt_coe a))
  rw [extended_of_finite hfin] at ha hb
  exact ⟨hfin, EReal.coe_le_coe_iff.mp ha, EReal.coe_le_coe_iff.mp hb⟩

theorem IsClamped.isZero_of_not_pos (hx : IsClamped x) (h : ¬ 0.0 < x) : IsZero x := by
  rw [lt_iff_parts] at h
  rcases hx.finite_or_infinite with ⟨hfin, hval⟩ | hinf
  · rcases parts_of_nonneg hfin hval with hzero | ⟨m, e, hm, hp⟩
    · exact hzero
    · rw [hp] at h
      exact absurd rfl h
  · rw [hinf] at h
    exact absurd rfl h

theorem isItemSize_or_infinite (h : 0.0 < x) :
    isItemSize x = true ∨ parts x = .infinity .positive := by
  cases hfin : x.isFinite with
  | true => exact Or.inl (isItemSize_of_pos hfin h)
  | false =>
      have hx := (isNaN_of_lt h).2
      have hclamped : IsClamped x := by
        rw [lt_iff_extended rfl hx] at h
        exact (isClamped_iff_extended hx).mpr h.le
      rcases hclamped.finite_or_infinite with ⟨hfin', -⟩ | hinf
      · rw [hfin] at hfin'
        cases hfin'
      · exact Or.inr hinf

/-! ## Products -/

/-- One is infinite and the other one zero. -/
def Undefined (x y : Float) : Prop :=
  (extended x = ⊤ ∧ ¬ 0.0 < y) ∨ (¬ 0.0 < x ∧ extended y = ⊤)

theorem isNaN_ofParts_notANumber : (ofParts .notANumber).isNaN = true := rfl

theorem mul_infinity_of_pos (hx : 0.0 < x) (hy : parts y = .infinity .positive) :
    parts (x * y) = .infinity .positive ∧ parts (y * x) = .infinity .positive := by
  show parts (ofParts (.mul .binary64 (parts x) (parts y))) = _
    ∧ parts (ofParts (.mul .binary64 (parts y) (parts x))) = _
  rw [hy]
  have hinf := parts_ofParts_infinity
  rcases isItemSize_or_infinite hx with hsize | hxinf
  · obtain ⟨m, e, hm, hp⟩ := parts_of_isItemSize hsize
    rw [hp]
    exact ⟨hinf, hinf⟩
  · rw [hxinf]
    exact ⟨hinf, hinf⟩

theorem mul_infinity_of_isZero (hx : IsZero x) (hy : parts y = .infinity .positive) :
    (x * y).isNaN = true ∧ (y * x).isNaN = true := by
  obtain ⟨s, hs⟩ := hx
  show (ofParts (.mul .binary64 (parts x) (parts y))).isNaN = true
    ∧ (ofParts (.mul .binary64 (parts y) (parts x))).isNaN = true
  rw [hs, hy]
  exact ⟨isNaN_ofParts_notANumber, isNaN_ofParts_notANumber⟩

/-- A product of numbers that are not below zero is another one, unless it is undefined. -/
theorem IsClamped.mul_cases (hx : IsClamped x) (hy : IsClamped y) :
    (Undefined x y ∧ (x * y).isNaN = true) ∨ (¬ Undefined x y ∧ IsClamped (x * y)) := by
  rcases hx.finite_or_infinite with ⟨hxfin, hxval⟩ | hxinf
  · rcases hy.finite_or_infinite with ⟨hyfin, hyval⟩ | hyinf
    · refine Or.inr ⟨?_, isClamped_of_rounds (mul_rounds hxfin hyfin) (mul_nonneg hxval hyval)⟩
      rintro (⟨h, -⟩ | ⟨-, h⟩)
      · exact extended_ne_top hxfin h
      · exact extended_ne_top hyfin h
    · by_cases hpos : 0.0 < x
      · refine Or.inr ⟨?_, isClamped_of_infinity (mul_infinity_of_pos hpos hyinf).1⟩
        rintro (⟨h, -⟩ | ⟨h, -⟩)
        · exact extended_ne_top hxfin h
        · exact h hpos
      · refine Or.inl ⟨Or.inr ⟨hpos, extended_eq_top_iff.mpr hyinf⟩, ?_⟩
        exact (mul_infinity_of_isZero (hx.isZero_of_not_pos hpos) hyinf).1
  · have hxpos : 0.0 < x := by
      rw [lt_iff_parts, hxinf]
      rfl
    by_cases hpos : 0.0 < y
    · refine Or.inr ⟨?_, isClamped_of_infinity (mul_infinity_of_pos hpos hxinf).2⟩
      rintro (⟨-, h⟩ | ⟨h, -⟩)
      · exact h hpos
      · exact h hxpos
    · refine Or.inl ⟨Or.inl ⟨extended_eq_top_iff.mpr hxinf, hpos⟩, ?_⟩
      exact (mul_infinity_of_isZero (hy.isZero_of_not_pos hpos) hxinf).2

theorem IsClamped.mul_isNaN_iff (hx : IsClamped x) (hy : IsClamped y) :
    (x * y).isNaN = true ↔ Undefined x y := by
  rcases hx.mul_cases hy with ⟨hundefined, hnan⟩ | ⟨hdefined, hclamped⟩
  · exact iff_of_true hnan hundefined
  · refine iff_of_false ?_ hdefined
    rw [hclamped.1]
    exact Bool.false_ne_true

theorem IsClamped.mul_of_number (hx : IsClamped x) (hy : IsClamped y)
    (h : (x * y).isNaN = false) : IsClamped (x * y) := by
  rcases hx.mul_cases hy with ⟨-, hnan⟩ | ⟨-, hclamped⟩
  · rw [h] at hnan
    cases hnan
  · exact hclamped

/-! ## Quotients -/

/-- Of the quotients by something above zero, only infinity over infinity is no number. -/
theorem IsClamped.div_isNaN_iff (hx : IsClamped x) (hy : 0.0 < y) :
    (x / y).isNaN = true ↔ extended x = ⊤ ∧ extended y = ⊤ := by
  rcases isItemSize_or_infinite hy with hsize | hyinf
  · rw [(hx.div hsize).1]
    refine iff_of_false Bool.false_ne_true ?_
    rintro ⟨-, h⟩
    exact extended_ne_top (Bool.and_eq_true_iff.mp hsize).1 h
  · have hquot : x / y = ofParts (.div .binary64 (parts x) (parts y)) := rfl
    rcases hx.finite_or_infinite with ⟨hxfin, -⟩ | hxinf
    · have hzero : IsZero (x / y) := by
        rcases parts_of_isFinite hxfin with ⟨s, hp⟩ | ⟨s, m, e, hm, hp⟩ <;>
          rw [hquot, hyinf, hp] <;> exact isZero_ofParts _
      rw [hzero.isClamped.1]
      refine iff_of_false Bool.false_ne_true ?_
      rintro ⟨h, -⟩
      exact extended_ne_top hxfin h
    · rw [hquot, hyinf, hxinf, extended_eq_top_iff, extended_eq_top_iff]
      exact iff_of_true isNaN_ofParts_notANumber ⟨hxinf, hyinf⟩

theorem div_of_isNaN (h : x.isNaN = true) (y : Float) : (x / y).isNaN = true := by
  change (parts x).isNaN = true at h
  show (ofParts (.div .binary64 (parts x) (parts y))).isNaN = true
  cases hp : parts x with
  | notANumber =>
      rw [UnpackedFloat.div]
      exact isNaN_ofParts_notANumber
  | _ => rw [hp] at h; cases h

end Extent

end Windowing
