import Windowing.Proofs.Extent.Grid
import Windowing.Proofs.Extent.Order
import Windowing.Proofs.WindowedList.Moving

/-!
# The track of a list

The positions of a coherent list, infinity included, are numbers not below zero, and so are the
offsets to scroll to (`Coherent.itemStart_isClamped`, `isClamped_clampScrollOffset`). On the line
of extended reals, bringing an offset onto the track is taking a minimum
(`extended_clampScrollOffset`). Where sizes are whole numbers, so are all positions on the track
(`Coherent.offsetOf_onGrid`). Scrolling to an item is one move of the viewport, which keeps its
extent (`Coherent.scrollToIndex_eq`).
-/

namespace Windowing

open Binary

namespace WindowedList

variable {ι α : Type} {l : WindowedList ι α} {x : Float}

/-! ## Where an item lies -/

/-- Where the item that an index means starts; past the end it is the last one. -/
def itemStart (l : WindowedList ι α) (index : ℕ) : Float :=
  l.offsetOf (min index (l.items.size - 1))

def itemStop (l : WindowedList ι α) (index : ℕ) : Float :=
  l.itemStart index + l.settings.itemExtent

theorem Coherent.offsetOf_isClamped (h : l.Coherent) (index : ℕ) :
    Extent.IsClamped (l.offsetOf index) :=
  (Extent.isClamped_toFloat index).mul h.item

theorem Coherent.itemStart_isClamped (h : l.Coherent) (index : ℕ) :
    Extent.IsClamped (l.itemStart index) :=
  h.offsetOf_isClamped _

theorem Coherent.item_isClamped (h : l.Coherent) : Extent.IsClamped l.settings.itemExtent :=
  (Extent.isClamped_iff h.item_finite).mpr ((Extent.isItemSize_iff h.item_finite).mp h.item).le

theorem Coherent.itemStop_isClamped (h : l.Coherent) (index : ℕ) :
    Extent.IsClamped (l.itemStop index) :=
  (h.itemStart_isClamped index).add h.item_isClamped

/-! ## Offsets on the track -/

theorem isClamped_maxScrollOffset (l : WindowedList ι α) : Extent.IsClamped l.maxScrollOffset :=
  Extent.isClamped_positivePart _

theorem clampScrollOffset_of_lt (h : Extent.clamp x < l.maxScrollOffset) :
    l.clampScrollOffset x = Extent.clamp x :=
  if_pos h

theorem clampScrollOffset_of_not_lt (h : ¬ Extent.clamp x < l.maxScrollOffset) :
    l.clampScrollOffset x = l.maxScrollOffset :=
  if_neg h

/-- An offset that is on the track before its end is left alone. -/
theorem clampScrollOffset_eq_self (hx : Extent.IsClamped x) (h : x < l.maxScrollOffset) :
    l.clampScrollOffset x = x := by
  rw [clampScrollOffset_of_lt (by rwa [hx.clamp_eq]), hx.clamp_eq]

theorem clampScrollOffset_eq_limit (hx : Extent.IsClamped x) (h : ¬ x < l.maxScrollOffset) :
    l.clampScrollOffset x = l.maxScrollOffset :=
  clampScrollOffset_of_not_lt (by rwa [hx.clamp_eq])

theorem isClamped_clampScrollOffset (l : WindowedList ι α) (x : Float) :
    Extent.IsClamped (l.clampScrollOffset x) := by
  by_cases h : Extent.clamp x < l.maxScrollOffset
  · rw [clampScrollOffset_of_lt h]
    exact Extent.isClamped_clamp x
  · rw [clampScrollOffset_of_not_lt h]
    exact l.isClamped_maxScrollOffset

theorem extended_clampScrollOffset (l : WindowedList ι α) (x : Float) :
    extended (l.clampScrollOffset x)
      = min (extended (Extent.clamp x)) (extended l.maxScrollOffset) := by
  have hx := (Extent.isClamped_clamp x).1
  have hlimit := l.isClamped_maxScrollOffset.1
  by_cases h : Extent.clamp x < l.maxScrollOffset
  · rw [clampScrollOffset_of_lt h, min_eq_left ((lt_iff_extended hx hlimit).mp h).le]
  · rw [clampScrollOffset_of_not_lt h, min_eq_right]
    rwa [lt_iff_extended hx hlimit, not_lt] at h

theorem clampScrollOffset_le_limit (l : WindowedList ι α) (x : Float) :
    extended (l.clampScrollOffset x) ≤ extended l.maxScrollOffset := by
  rw [extended_clampScrollOffset]
  exact min_le_right _ _

theorem isClamped_scrollTarget (l : WindowedList ι α) (index : ℕ) (a : Alignment) :
    Extent.IsClamped (l.scrollTarget index a) := by
  unfold scrollTarget
  split
  · exact Extent.isClamped_zero
  · exact l.isClamped_clampScrollOffset _

/-- Where an item is to be scrolled to, before that is brought onto the track. -/
def aim (l : WindowedList ι α) (index : ℕ) : Alignment → Float
  | .leading => l.itemStart index
  | .trailing => l.itemStop index - l.viewport.extent
  | .centered => l.itemStart index + l.settings.itemExtent / 2.0 - l.viewport.extent / 2.0
  | .nearest =>
    if l.viewport.scrollOffset ≤ l.itemStart index
        ∧ l.itemStop index ≤ l.viewport.scrollOffset + l.viewport.extent then
      l.viewport.scrollOffset
    else if l.itemStart index < l.viewport.scrollOffset then l.itemStart index
    else l.itemStop index - l.viewport.extent

theorem scrollTarget_of_items (hn : 0 < l.items.size) (index : ℕ) (a : Alignment) :
    l.scrollTarget index a = l.clampScrollOffset (l.aim index a) := by
  rw [scrollTarget, if_neg hn.ne']
  cases a <;> rfl

/-! ## Whole numbers -/

section

variable {e v : ℕ}

theorem Coherent.item_pos_of_isWhole (h : l.Coherent)
    (hitem : Extent.IsWhole l.settings.itemExtent e) : 0 < e := by
  have hsize := h.item
  rw [Extent.isItemSize_iff hitem.1, hitem.2] at hsize
  exact_mod_cast hsize

theorem Coherent.offsetOf_onGrid (h : l.Coherent)
    (hitem : Extent.IsWhole l.settings.itemExtent e) (htrack : l.items.size * e ≤ 2 ^ 53) {i : ℕ}
    (hi : i ≤ l.items.size) : Extent.OnGrid 0 (l.offsetOf i) (i * e : ℕ) := by
  have he := h.item_pos_of_isWhole hitem
  have hie : i * e ≤ 2 ^ 53 := (Nat.mul_le_mul_right e hi).trans htrack
  have hi53 : i ≤ 2 ^ 53 := (Nat.le_mul_of_pos_right i he).trans hie
  rw [Nat.cast_mul]
  refine (Extent.isWhole_toFloat hi53).onGrid.mul hitem.onGrid (Nat.zero_le _) ?_
  rw [← Nat.cast_mul, Nat.abs_cast]
  exact_mod_cast hie

theorem Coherent.itemStop_onGrid (h : l.Coherent) (hn : 0 < l.items.size)
    (hitem : Extent.IsWhole l.settings.itemExtent e) (htrack : l.items.size * e ≤ 2 ^ 53)
    (index : ℕ) :
    Extent.OnGrid 0 (l.itemStop index) ((min index (l.items.size - 1) + 1) * e : ℕ) := by
  have hle : (min index (l.items.size - 1) + 1) * e ≤ 2 ^ 53 :=
    (Nat.mul_le_mul_right e (by omega)).trans htrack
  rw [Nat.succ_mul] at hle ⊢
  rw [Nat.cast_add]
  refine (h.offsetOf_onGrid hitem htrack (by omega)).add hitem.onGrid (Nat.zero_le _) ?_
  rw [← Nat.cast_add, Nat.abs_cast]
  exact_mod_cast hle

theorem Coherent.maxScrollOffset_onGrid (h : l.Coherent)
    (hitem : Extent.IsWhole l.settings.itemExtent e) (htrack : l.items.size * e ≤ 2 ^ 53)
    (hview : Extent.IsWhole l.viewport.extent v) (hv : v ≤ 2 ^ 53) :
    Extent.OnGrid 0 l.maxScrollOffset (l.items.size * e - v : ℕ) := by
  have hlimit := ((h.offsetOf_onGrid hitem htrack le_rfl).sub hview.onGrid (Nat.zero_le _)
    (by rw [abs_le]; omega)).positivePart
  have hcast : ((l.items.size * e - v : ℕ) : ℤ) = max ((l.items.size * e : ℕ) - (v : ℤ)) 0 := by
    omega
  rw [hcast]
  exact hlimit

theorem clampScrollOffset_onGrid {k : ℕ} {m n : ℤ} (hx : Extent.OnGrid k (Extent.clamp x) m)
    (hlimit : Extent.OnGrid k l.maxScrollOffset n) :
    Extent.OnGrid k (l.clampScrollOffset x) (min m n) := by
  by_cases h : Extent.clamp x < l.maxScrollOffset
  · rw [clampScrollOffset_of_lt h, min_eq_left ((hx.lt_iff hlimit).mp h).le]
    exact hx
  · rw [clampScrollOffset_of_not_lt h, min_eq_right (not_lt.mp (mt (hx.lt_iff hlimit).mpr h))]
    exact hlimit

end

/-! ## Scrolling to an item -/

@[simp] theorem scrollToIndex_result (l : WindowedList ι α) (index : ℕ) (a : Alignment) :
    (l.scrollToIndex index a).result = l.scrollTarget index a := rfl

theorem Coherent.scrollToIndex_eq (h : l.Coherent) (index : ℕ) (a : Alignment) :
    l.scrollToIndex index a
      = (l.moveTo ⟨l.scrollTarget index a, l.viewport.extent⟩).map
          fun _ => l.scrollTarget index a := by
  have hclamped : Viewport.clamped (l.scrollTarget index a) l.viewport.extent
      = ⟨l.scrollTarget index a, l.viewport.extent⟩ := by
    rw [Viewport.clamped, (l.isClamped_scrollTarget index a).clamp_eq, h.viewport.2.clamp_eq]
  rw [scrollToIndex, setScrollOffset, setViewport, hclamped]

theorem Coherent.scrollToIndex (h : l.Coherent) (index : ℕ) (a : Alignment) :
    (l.scrollToIndex index a).state.Coherent :=
  h.apply (.scrollTo index a)

theorem Coherent.scrollToIndex_extent (h : l.Coherent) (index : ℕ) (a : Alignment) :
    (l.scrollToIndex index a).state.viewport.extent = l.viewport.extent :=
  (h.setScrollOffset_viewport _).2

theorem Coherent.scrollToIndex_scrollOffset (h : l.Coherent) (index : ℕ) (a : Alignment) :
    ((l.scrollToIndex index a).state.viewport.scrollOffset == l.scrollTarget index a) = true := by
  have hmoved := (h.setScrollOffset_viewport (l.scrollTarget index a)).1
  rwa [(l.isClamped_scrollTarget index a).clamp_eq] at hmoved

theorem scrollToIndex_items (l : WindowedList ι α) (index : ℕ) (a : Alignment) :
    (l.scrollToIndex index a).state.items = l.items :=
  moveTo_items ..

theorem scrollToIndex_settings (l : WindowedList ι α) (index : ℕ) (a : Alignment) :
    (l.scrollToIndex index a).state.settings = l.settings :=
  moveTo_settings ..

end WindowedList

end Windowing
