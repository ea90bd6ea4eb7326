import Windowing.Geometry
import Windowing.Viewport
import Windowing.Proofs.Binary.Arithmetic

/-!
# Clamped extents and signed zeros

What `Extent.clamp` gives is a number that is not below zero (`isClamped_clamp`), and such
a number it leaves alone (`IsClamped.clamp_eq`). Viewports are compared with `==`, which
does not tell the two zeros apart. Nor does anything that a window is computed from
(`Same`), so viewports that compare equal have the same window (`Geometry.window_congr`).
-/

namespace Windowing

open Float.Model Float.Model.UnpackedFloat

namespace Extent

/-- A number, infinity included, that is not below zero. -/
def IsClamped (x : Float) : Prop := x.isNaN = false ∧ ¬ x < 0.0

theorem isClamped_zero : IsClamped 0.0 := ⟨by decide, by decide⟩

theorem isClamped_clamp (x : Float) : IsClamped (clamp x) := by
  unfold clamp
  split
  · exact isClamped_zero
  · rename_i h
    rw [Bool.or_eq_true, not_or, decide_eq_true_iff] at h
    exact ⟨eq_false_of_ne_true h.1, h.2⟩

theorem IsClamped.clamp_eq {x : Float} (h : IsClamped x) : clamp x = x := by
  unfold clamp
  rw [h.1, Bool.false_or, decide_eq_false h.2]
  rfl

/-! ## Item sizes -/

theorem isItemSize_of_pos {x : Float} (hfin : x.isFinite = true) (hpos : 0.0 < x) :
    isItemSize x = true := by
  simp [isItemSize, hfin, hpos]

/-- An item size is none of the special values, and has no sign. -/
theorem parts_of_isItemSize {x : Float} (h : isItemSize x = true) :
    ∃ m e hm, Binary.parts x = .finite .positive m e hm := by
  rw [isItemSize, Bool.and_eq_true, decide_eq_true_iff, Binary.lt_iff_parts] at h
  obtain ⟨hfin, hpos⟩ := h
  rcases Binary.parts_of_isFinite hfin with ⟨s, hp⟩ | ⟨s, m, e, hm, hp⟩
  · rw [hp] at hpos
    cases hpos
  · cases s with
    | negative => rw [hp] at hpos; cases hpos
    | positive => exact ⟨m, e, hm, hp⟩

end Extent

/-! ## Up to the sign of zero -/

namespace Binary

theorem IsZero.isClamped {x : Float} (h : IsZero x) : Extent.IsClamped x := by
  obtain ⟨s, hs⟩ := h
  refine ⟨?_, ?_⟩
  · show (parts x).isNaN = false
    rw [hs]
    rfl
  · rw [lt_iff_parts, hs]
    intro hlt
    cases hlt

/-- The same float, or two zeros. -/
def Same (x y : Float) : Prop := x = y ∨ (IsZero x ∧ IsZero y)

theorem beq_iff_same {x y : Float} : (x == y) = true ↔ Same x y ∧ x.isNaN = false := by
  rw [beq_iff, Same]
  constructor
  · rintro (⟨rfl, hn⟩ | ⟨hx, hy⟩)
    · exact ⟨Or.inl rfl, hn⟩
    · exact ⟨Or.inr ⟨hx, hy⟩, hx.isClamped.1⟩
  · rintro ⟨rfl | hz, hn⟩
    · exact Or.inl ⟨rfl, hn⟩
    · exact Or.inr hz

theorem beq_self {x : Float} (h : x.isNaN = false) : (x == x) = true :=
  beq_iff_same.mpr ⟨Or.inl rfl, h⟩

theorem isZero_ofParts (s : Sign) : IsZero (ofParts (.zero s)) :=
  ⟨s, @parts_ofParts (.zero s) trivial trivial⟩

namespace Same

variable {x y z x' y' : Float}

theorem refl (x : Float) : Same x x := Or.inl rfl

theorem trans (h : Same x y) (h' : Same y z) : Same x z := by
  rcases h with rfl | ⟨hx, hy⟩
  · exact h'
  · rcases h' with rfl | ⟨-, hz⟩
    · exact Or.inr ⟨hx, hy⟩
    · exact Or.inr ⟨hx, hz⟩

theorem clamp (h : Same x y) : Same (Extent.clamp x) (Extent.clamp y) := by
  rcases h with rfl | ⟨hx, hy⟩
  · exact refl _
  · rw [hx.isClamped.clamp_eq, hy.isClamped.clamp_eq]
    exact Or.inr ⟨hx, hy⟩

/-- Adding a zero changes nothing but the sign of a zero. -/
theorem ofParts_add_zero (u : UnpackedFloat) (s t : Sign) :
    Same (ofParts (.add .binary64 u (.zero s))) (ofParts (.add .binary64 u (.zero t))) := by
  cases u with
  | zero r =>
      refine Or.inr ?_
      cases r <;> cases s <;> cases t <;> exact ⟨isZero_ofParts _, isZero_ofParts _⟩
  | _ => exact refl _

theorem ofParts_zero_add (s t : Sign) (v : UnpackedFloat) :
    Same (ofParts (.add .binary64 (.zero s) v)) (ofParts (.add .binary64 (.zero t) v)) := by
  cases v with
  | zero r =>
      refine Or.inr ?_
      cases r <;> cases s <;> cases t <;> exact ⟨isZero_ofParts _, isZero_ofParts _⟩
  | _ => exact refl _

theorem add_right (x : Float) (h : Same y y') : Same (x + y) (x + y') := by
  rcases h with rfl | ⟨⟨s, hs⟩, ⟨t, ht⟩⟩
  · exact refl _
  · show Same (ofParts (.add .binary64 (parts x) (parts y)))
      (ofParts (.add .binary64 (parts x) (parts y')))
    rw [hs, ht]
    exact ofParts_add_zero _ s t

theorem add_left (h : Same x x') (y : Float) : Same (x + y) (x' + y) := by
  rcases h with rfl | ⟨⟨s, hs⟩, ⟨t, ht⟩⟩
  · exact refl _
  · show Same (ofParts (.add .binary64 (parts x) (parts y)))
      (ofParts (.add .binary64 (parts x') (parts y)))
    rw [hs, ht]
    exact ofParts_zero_add s t _

theorem add (h : Same x x') (h' : Same y y') : Same (x + y) (x' + y') :=
  (h.add_left y).trans (h'.add_right x')

/-- A difference is a sum with the opposite, and the opposite of a zero is one. -/
theorem sub_right (x : Float) (h : Same y y') : Same (x - y) (x - y') := by
  rcases h with rfl | ⟨⟨s, hs⟩, ⟨t, ht⟩⟩
  · exact refl _
  · show Same (ofParts (.sub .binary64 (parts x) (parts y)))
      (ofParts (.sub .binary64 (parts x) (parts y')))
    rw [sub_eq_add, sub_eq_add, hs, ht]
    exact ofParts_add_zero _ (-s) (-t)

theorem sub_left (h : Same x x') (y : Float) : Same (x - y) (x' - y) := by
  rcases h with rfl | ⟨⟨s, hs⟩, ⟨t, ht⟩⟩
  · exact refl _
  · show Same (ofParts (.sub .binary64 (parts x) (parts y)))
      (ofParts (.sub .binary64 (parts x') (parts y)))
    rw [sub_eq_add, sub_eq_add, hs, ht]
    exact ofParts_zero_add s t _

theorem sub (h : Same x x') (h' : Same y y') : Same (x - y) (x' - y') :=
  (h.sub_left y).trans (h'.sub_right x')

theorem div_left (h : Same x x') (hy : Extent.isItemSize y = true) :
    Same (x / y) (x' / y) := by
  rcases h with rfl | ⟨⟨s, hs⟩, ⟨t, ht⟩⟩
  · exact refl _
  · obtain ⟨m, e, hm, hp⟩ := Extent.parts_of_isItemSize hy
    show Same (ofParts (.div .binary64 (parts x) (parts y)))
      (ofParts (.div .binary64 (parts x') (parts y)))
    rw [hs, ht, hp]
    exact Or.inr ⟨isZero_ofParts _, isZero_ofParts _⟩

end Same

end Binary

namespace Extent

open Binary

variable {x y : Float}

/-- Sizes that compare equal are equal, for none of them is a zero. -/
theorem eq_of_beq (hx : isItemSize x = true) (h : (x == y) = true) : x = y := by
  rcases (beq_iff_same.mp h).1 with heq | ⟨⟨s, hs⟩, -⟩
  · exact heq
  · obtain ⟨m, e, hm, hp⟩ := parts_of_isItemSize hx
    rw [hp] at hs
    cases hs

theorem isClamped_of_beq (h : (x == y) = true) (hy : IsClamped y) : IsClamped x := by
  rcases (beq_iff_same.mp h).1 with rfl | ⟨hx, -⟩
  · exact hy
  · exact hx.isClamped

theorem floorIndex_of_isZero (h : IsZero x) : floorIndex x = 0 := by
  obtain ⟨s, hs⟩ := h
  show (parts x).toUInt64.toNat = 0
  rw [hs]
  rfl

theorem ceilIndex_of_isZero (h : IsZero x) : ceilIndex x = 0 := by
  have hzero : ¬ Count.toFloat 0 < x := by
    obtain ⟨s, hs⟩ := h
    rw [lt_iff_parts, hs]
    intro hlt
    cases hlt
  simp only [ceilIndex, floorIndex_of_isZero h, if_neg hzero]

theorem floorIndex_congr (h : Same x y) : floorIndex x = floorIndex y := by
  rcases h with rfl | ⟨hx, hy⟩
  · rfl
  · rw [floorIndex_of_isZero hx, floorIndex_of_isZero hy]

theorem ceilIndex_congr (h : Same x y) : ceilIndex x = ceilIndex y := by
  rcases h with rfl | ⟨hx, hy⟩
  · rfl
  · rw [ceilIndex_of_isZero hx, ceilIndex_of_isZero hy]

end Extent

/-- Viewports that differ in the signs of zeros have the same window. -/
theorem Geometry.window_congr {s s' v v' e : Float} {n o : Nat}
    (hs : Binary.Same s s') (hv : Binary.Same v v') :
    (Geometry.mk s e v n o).window = (Geometry.mk s' e v' n o).window := by
  by_cases hempty : n = 0 ∨ Extent.isItemSize e = false
  · rw [window, window, if_pos hempty, if_pos hempty]
  · have he : Extent.isItemSize e = true := by
      rw [not_or, Bool.not_eq_false] at hempty
      exact hempty.2
    have hfirst : (Geometry.mk s e v n o).firstVisible = (Geometry.mk s' e v' n o).firstVisible :=
      Extent.floorIndex_congr (hs.clamp.div_left he)
    have hceil := Extent.ceilIndex_congr ((hs.clamp.add hv.clamp).div_left he)
    simp only [window, visibleStop, hfirst, hceil]

end Windowing
