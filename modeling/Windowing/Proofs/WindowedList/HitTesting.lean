import Windowing.Proofs.Extent.Multiples
import Windowing.Proofs.WindowedList.Moving

/-!
# Items found where they are said to start

A list says where an item starts (`itemOffset?`), and which item lies at a position
(`indexAtOffset?`). The first is a rounded product, the second cuts a rounded quotient, and they are
not always inverse to each other: with items of 0.7, item 3 is said to start just below three times
that size, and the item found there is item 2 (`item_found_before_start`). When this happens depends
on the item size, the index and whether a next item exists; `placed_items_hit_tested` says exactly
when, for every list, and that the item found is never more than one off. Scrolling to a position
does not change which item is found there (`Coherent.indexAtOffset?_scrolled`), so that a list
scrolled to where an item is said to start has the wrong item under its scroll offset in just the
same cases.
-/

namespace Windowing

open Binary

namespace WindowedList

variable {ι α : Type} {l : WindowedList ι α} {i : ℕ} {x : Float}

theorem itemOffset?_eq_some_iff :
    l.itemOffset? i = some x ↔ i < l.items.size ∧ l.offsetOf i = x := by
  rw [itemOffset?]
  split <;> simp [*]

/-! ## Scrolling to a position -/

theorem setScrollOffset_items (l : WindowedList ι α) (x : Float) :
    (l.setScrollOffset x).state.items = l.items :=
  moveTo_items ..

theorem setScrollOffset_settings (l : WindowedList ι α) (x : Float) :
    (l.setScrollOffset x).state.settings = l.settings :=
  moveTo_settings ..

/-- The item under the scroll offset is the one that was found at the position before. -/
theorem Coherent.indexAtOffset?_scrolled (h : l.Coherent) (x : Float) :
    (l.setScrollOffset x).state.indexAtOffset? (l.setScrollOffset x).state.viewport.scrollOffset
      = l.indexAtOffset? x := by
  have hsame := (beq_iff_same.mp (l.setScrollOffset_scrollOffset x)).1.clamp
  rw [(Extent.isClamped_clamp x).clamp_eq] at hsame
  rw [indexAtOffset?, indexAtOffset?, setScrollOffset_items, setScrollOffset_settings,
    Extent.floorIndex_congr (hsame.div_left h.item)]

/-! ## The item found at an offset -/

theorem Coherent.indexAtOffset?_offsetOf (h : l.Coherent) (hi : i < l.items.size) :
    l.indexAtOffset? (l.offsetOf i)
      = some (min (Extent.floorIndex (l.offsetOf i / l.settings.itemExtent))
          (l.items.size - 1)) := by
  have hclamped : Extent.IsClamped (l.offsetOf i) := (Extent.isClamped_toFloat i).mul h.item
  rw [indexAtOffset?, if_neg (Nat.zero_lt_of_lt hi).ne', hclamped.clamp_eq]

theorem Coherent.indexAtOffset?_of_fallsShort (h : l.Coherent) (hi : i < l.items.size)
    (hm : Extent.HasMultiple l.settings.itemExtent i)
    (hshort : Extent.FallsShort l.settings.itemExtent i) :
    l.indexAtOffset? (l.offsetOf i) = some (i - 1) := by
  rw [h.indexAtOffset?_offsetOf hi, offsetOf, hm.floorIndex_of_fallsShort hshort,
    min_eq_left (by omega)]

theorem Coherent.indexAtOffset?_of_overshoots (h : l.Coherent) (hi : i < l.items.size)
    (hm : Extent.HasMultiple l.settings.itemExtent i)
    (hover : Extent.Overshoots l.settings.itemExtent i) :
    l.indexAtOffset? (l.offsetOf i) = some (min (i + 1) (l.items.size - 1)) := by
  rw [h.indexAtOffset?_offsetOf hi, offsetOf, hm.floorIndex_of_overshoots hover]

theorem Coherent.indexAtOffset?_of_kept (h : l.Coherent) (hi : i < l.items.size)
    (hm : Extent.HasMultiple l.settings.itemExtent i)
    (hshort : ¬ Extent.FallsShort l.settings.itemExtent i)
    (hover : ¬ Extent.Overshoots l.settings.itemExtent i) :
    l.indexAtOffset? (l.offsetOf i) = some i := by
  rw [h.indexAtOffset?_offsetOf hi, offsetOf, hm.floorIndex_of_kept hshort hover,
    min_eq_left (by omega)]

/-- Past the last item there is none to be found instead. -/
theorem Coherent.indexAtOffset?_own_iff (h : l.Coherent) (hi : i < l.items.size)
    (hm : Extent.HasMultiple l.settings.itemExtent i) :
    l.indexAtOffset? (l.offsetOf i) = some i
      ↔ ¬ Extent.FallsShort l.settings.itemExtent i
        ∧ ¬ (Extent.Overshoots l.settings.itemExtent i ∧ i + 1 < l.items.size) := by
  by_cases hshort : Extent.FallsShort l.settings.itemExtent i
  · have hpos : 0 < i := hm.pos_of_fallsShort hshort
    rw [h.indexAtOffset?_of_fallsShort hi hm hshort, Option.some_inj]
    exact iff_of_false (by omega) fun hkept => hkept.1 hshort
  · by_cases hover : Extent.Overshoots l.settings.itemExtent i
    · rw [h.indexAtOffset?_of_overshoots hi hm hover, Option.some_inj,
        and_iff_right hshort, and_iff_right hover]
      omega
    · rw [h.indexAtOffset?_of_kept hi hm hshort hover]
      exact iff_of_true rfl ⟨hshort, fun hnext => hover hnext.1⟩

/-! ## Every list -/

/-- Which item is found at `x`, where item `i` is said to start. -/
structure HitTested (l : WindowedList ι α) (i : ℕ) (x : Float) : Prop where
  own_iff : l.indexAtOffset? x = some i
    ↔ ¬ Extent.FallsShort l.settings.itemExtent i
      ∧ ¬ (Extent.Overshoots l.settings.itemExtent i ∧ i + 1 < l.items.size)
  before : Extent.FallsShort l.settings.itemExtent i → l.indexAtOffset? x = some (i - 1)
  after : Extent.Overshoots l.settings.itemExtent i → i + 1 < l.items.size →
    l.indexAtOffset? x = some (i + 1)
  /-- Where nothing has to be rounded, it is the item itself. -/
  representable : Representable (i * value l.settings.itemExtent) → l.indexAtOffset? x = some i
  whole : ∀ n : ℕ, Extent.IsWhole l.settings.itemExtent n → i * n ≤ 2 ^ 53 →
    l.indexAtOffset? x = some i
  /-- The same item is under the scroll offset after scrolling there. -/
  scrolled : (l.setScrollOffset x).state.indexAtOffset?
    (l.setScrollOffset x).state.viewport.scrollOffset = l.indexAtOffset? x

/-- Hit testing finds an item at its own offset, unless the offset was rounded to where dividing it
by the item size gives the index before or, among the very largest indexes, the index after. -/
theorem placed_items_hit_tested (h : Reachable l) (hsmall : i < 2 ^ 53)
    (hx : l.itemOffset? i = some x) (hfin : x.isFinite = true) : l.HitTested i x := by
  obtain ⟨hi, rfl⟩ := itemOffset?_eq_some_iff.mp hx
  have hl := h.coherent
  have hm : Extent.HasMultiple l.settings.itemExtent i := ⟨hl.item, hsmall, hfin⟩
  have hown (hrep : Representable (i * value l.settings.itemExtent)) :
      l.indexAtOffset? (l.offsetOf i) = some i := by
    obtain ⟨hshort, hover⟩ := hm.kept_of_representable hrep
    exact hl.indexAtOffset?_of_kept hi hm hshort hover
  refine ⟨hl.indexAtOffset?_own_iff hi hm, hl.indexAtOffset?_of_fallsShort hi hm,
    fun hover hnext => ?_, hown,
    fun n hitem hn => hown (Extent.representable_of_isWhole hitem hn),
    hl.indexAtOffset?_scrolled _⟩
  rw [hl.indexAtOffset?_of_overshoots hi hm hover, min_eq_left (by omega)]

theorem placed_items_hit_tested_fraction :
    ∃ l : WindowedList Nat Nat,
      create #[0, 1, 2, 3] { itemExtent := 0.7, viewportExtent := 1.0 } = .ok l ∧ 3 < 2 ^ 53
      ∧ l.itemOffset? 3 = some 2.0999999999999996
      ∧ (2.0999999999999996 : Float).isFinite = true ∧ l.HitTested 3 2.0999999999999996 := by
  have h : create #[0, 1, 2, 3] { itemExtent := 0.7, viewportExtent := 1.0 }
      = .ok (_ : WindowedList Nat Nat) := rfl
  have hproduct : Count.toFloat 3 * 0.7 = 2.0999999999999996 := by decide +kernel
  have hoffset := congrArg some hproduct
  exact ⟨_, h, by decide, hoffset, by decide +kernel,
    placed_items_hit_tested (.create h) (by decide) hoffset (by decide +kernel)⟩

/-- The offset of item 3 divided by 0.7 is the last float before 3. -/
theorem item_found_before_start :
    ¬ ∀ (l : WindowedList Nat Nat) (i : ℕ) (x : Float), Reachable l → i < 2 ^ 53 →
      l.itemOffset? i = some x → x.isFinite = true → l.indexAtOffset? x = some i := by
  intro hown
  have h : create #[0, 1, 2, 3] { itemExtent := 0.7, viewportExtent := 1.0 }
      = .ok (_ : WindowedList Nat Nat) := rfl
  exact absurd (hown _ 3 (Count.toFloat 3 * 0.7) (.create h) (by decide) rfl (by decide +kernel))
    (by decide +kernel)

end WindowedList

end Windowing
