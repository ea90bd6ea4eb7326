import Windowing.Proofs.Geometry.Whole
import Windowing.Proofs.WindowedList.Track

/-!
# Scrolling to an item shows it

For sizes that are whole numbers, the target of scrolling to an item is a whole number of halves
(`Coherent.scrollTarget_onGrid`), since `Alignment.centered` halves the sizes. So target and window
can be computed with whole numbers, and what is left is arithmetic
(`contains_doubledTarget_iff`).

A viewport without extent still shows the item under the scroll offset. But aligning the end of an
item with its end puts the offset at the start of the next item, and then it is that one which is
shown (`end_aligned_not_shown`). In all other cases the item scrolled to is in the window
(`scrollToIndex_shows_iff`).
-/

namespace Windowing

open Extent

/-! ## Twice the target -/

/-- Twice the offset that brings item `i` to its place, for whole sizes and a whole present
offset. Differences stop at zero, as offsets do. -/
def doubledAim (item view scroll i : ℕ) : Alignment → ℕ
  | .leading => 2 * (i * item)
  | .trailing => 2 * ((i + 1) * item - view)
  | .centered => 2 * (i * item) + item - view
  | .nearest =>
    if scroll ≤ i * item ∧ (i + 1) * item ≤ scroll + view then 2 * scroll
    else if i * item < scroll then 2 * (i * item)
    else 2 * ((i + 1) * item - view)

/-- Twice the target: the viewport does not reach past the last item. -/
def doubledTarget (item view count scroll i : ℕ) (a : Alignment) : ℕ :=
  min (doubledAim item view scroll i a) (2 * (count * item - view))

section

variable {item view count overscan scroll i : ℕ} {a : Alignment}

/-- The end of the item is aligned with the end of a viewport that has no extent. The nearest place
is that one if the item does not start before the present offset. -/
def EndsAtPoint (item view scroll i : ℕ) (a : Alignment) : Prop :=
  view = 0 ∧ (a = .trailing ∨ a = .nearest ∧ scroll ≤ i * item)

theorem doubledTarget_lt (hitem : 0 < item) (h : ¬ EndsAtPoint item view scroll i a) :
    doubledTarget item view count scroll i a < 2 * ((i + 1) * item) := by
  unfold EndsAtPoint at h
  unfold doubledTarget
  rw [Nat.succ_mul]
  cases a <;> simp only [doubledAim, Nat.succ_mul, reduceCtorEq, false_or, true_and, false_and,
    or_false, and_true] at h ⊢
  case nearest => split_ifs <;> omega
  all_goals omega

theorem doubledTarget_reaches (hitem : 0 < item) (hi : i < count) :
    2 * (i * item) ≤ doubledTarget item view count scroll i a
      ∨ 2 * (i * item) < doubledTarget item view count scroll i a + 2 * view := by
  have hlast : (i + 1) * item ≤ count * item := Nat.mul_le_mul_right item hi
  rw [Nat.succ_mul] at hlast
  unfold doubledTarget
  cases a <;> simp only [doubledAim, Nat.succ_mul]
  case nearest => split_ifs <;> omega
  all_goals omega

theorem doubledTarget_of_endsAtPoint (hitem : 0 < item) (hi : i < count)
    (h : EndsAtPoint item view scroll i a) :
    doubledTarget item view count scroll i a = 2 * ((i + 1) * item) := by
  have hlast : (i + 1) * item ≤ count * item := Nat.mul_le_mul_right item hi
  unfold doubledTarget
  obtain ⟨rfl, rfl | ⟨rfl, hle⟩⟩ := h
  · simp only [doubledAim]
    omega
  · simp only [doubledAim]
    rw [Nat.succ_mul] at hlast ⊢
    split_ifs <;> omega

theorem contains_doubledTarget_iff (hitem : 0 < item) (hi : i < count) (a : Alignment) :
    (wholeWindow (doubledTarget item view count scroll i a) (2 * view) (2 * item) count
        overscan).contains i = true
      ↔ ¬ (EndsAtPoint item view scroll i a ∧ overscan = 0) := by
  have hunit : 0 < 2 * item := by omega
  have hmul (k : ℕ) : k * (2 * item) = 2 * (k * item) := Nat.mul_left_comm ..
  rw [contains_wholeWindow_iff]
  by_cases h : EndsAtPoint item view scroll i a
  · have hview : view = 0 := h.1
    have hfirst : 2 * ((i + 1) * item) / (2 * item) = i + 1 := by
      rw [← hmul, Nat.mul_div_cancel _ hunit]
    rw [doubledTarget_of_endsAtPoint hitem hi h, hfirst]
    constructor
    · rintro ⟨-, hle, -⟩ ⟨-, rfl⟩
      omega
    · intro hs
      have hoverscan : overscan ≠ 0 := fun h0 => hs ⟨h, h0⟩
      exact ⟨hi, by omega, by omega⟩
  · have hfirst : doubledTarget item view count scroll i a / (2 * item) ≤ i := by
      rw [div_le_iff_lt_mul hunit, hmul]
      exact doubledTarget_lt hitem h
    refine iff_of_true ⟨hi, Nat.le_add_right_of_le hfirst, Nat.lt_add_right _ ?_⟩ fun hs => h hs.1
    rw [lt_max_iff]
    rcases @doubledTarget_reaches item view count scroll i a hitem hi with hreach | hreach
    · right
      rw [Nat.lt_add_one_iff, Nat.le_div_iff_mul_le hunit, hmul]
      exact hreach
    · left
      rw [lt_ceil_iff hunit, hmul]
      exact hreach

end

namespace WindowedList

variable {ι α : Type} {l : WindowedList ι α} {item view scroll : ℕ}

/-! ## Whole sizes -/

/-- Sizes and the present offset are whole numbers, and positions are small enough for floats to
hold their halves. -/
structure WholeAt (l : WindowedList ι α) (item view scroll : ℕ) : Prop where
  item_isWhole : IsWhole l.settings.itemExtent item
  view_isWhole : IsWhole l.viewport.extent view
  scroll_isWhole : IsWhole l.viewport.scrollOffset scroll
  track_lt : l.items.size * item < 2 ^ 52
  reach_lt : scroll + view < 2 ^ 52

theorem create_wholeAt {items : Array α} {settings : ListSettings ι}
    (h : create items settings = .ok l) (hitem : IsWhole settings.itemExtent item)
    (hview : IsWhole settings.viewportExtent view)
    (hscroll : IsWhole settings.initialOffset scroll) (htrack : items.size * item < 2 ^ 52)
    (hreach : scroll + view < 2 ^ 52) : l.WholeAt item view scroll := by
  obtain ⟨_, -, rfl⟩ := SettingError.passed_of_map_eq_ok h
  have hviewport : Viewport.clamped settings.initialOffset settings.viewportExtent
      = ⟨settings.initialOffset, settings.viewportExtent⟩ := by
    rw [Viewport.clamped, hscroll.isClamped.clamp_eq, hview.isClamped.clamp_eq]
  refine ⟨hitem, ?_, ?_, htrack, hreach⟩
  · show IsWhole (Viewport.clamped _ _).extent view
    rwa [hviewport]
  · show IsWhole (Viewport.clamped _ _).scrollOffset scroll
    rwa [hviewport]

theorem Coherent.clamp_aim_onGrid (h : l.Coherent) (hn : 0 < l.items.size)
    (hw : l.WholeAt item view scroll) (index : ℕ) (a : Alignment) :
    OnGrid 1 (clamp (l.aim index a))
      (doubledAim item view scroll (min index (l.items.size - 1)) a : ℕ) := by
  obtain ⟨hitem, hview, hscroll, htrack, hreach⟩ := hw
  have hstart := h.offsetOf_onGrid hitem (i := min index (l.items.size - 1)) (by omega) (by omega)
  have hstop := h.itemStop_onGrid hn hitem (by omega) index
  have hlast : (min index (l.items.size - 1) + 1) * item ≤ l.items.size * item :=
    Nat.mul_le_mul_right item (by omega)
  change OnGrid 0 (l.itemStart index) _ at hstart
  generalize min index (l.items.size - 1) = i at *
  have hsucc : (i + 1) * item = i * item + item := Nat.succ_mul ..
  rw [hsucc] at hlast hstop
  have hback := hstop.sub hview.onGrid (Nat.zero_le _) (by rw [abs_le]; omega)
  have hend := hscroll.onGrid.add hview.onGrid (Nat.zero_le _) (by rw [abs_le]; omega)
  cases a <;> simp only [doubledAim, hsucc]
  case leading => exact hstart.refine.clamp_of_eq (by omega)
  case trailing => exact hback.refine.clamp_of_eq (by omega)
  case centered =>
    have hmiddle := hstart.refine.add (hitem.onGrid.half (by norm_num) (by rw [abs_le]; omega))
      (by norm_num) (by rw [abs_le]; omega)
    have hhalf := hview.onGrid.half (by norm_num) (by rw [abs_le]; omega)
    exact (hmiddle.sub hhalf (by norm_num) (by rw [abs_le]; omega)).clamp_of_eq (by omega)
  case nearest =>
    simp only [aim, hscroll.onGrid.le_iff hstart, hstop.le_iff hend,
      hstart.lt_iff hscroll.onGrid, Nat.cast_le, Nat.cast_lt, ← Nat.cast_add]
    split_ifs
    · exact hscroll.onGrid.refine.clamp_of_eq (by omega)
    · exact hstart.refine.clamp_of_eq (by omega)
    · exact hback.refine.clamp_of_eq (by omega)

theorem Coherent.scrollTarget_onGrid (h : l.Coherent) (hn : 0 < l.items.size)
    (hw : l.WholeAt item view scroll) (index : ℕ) (a : Alignment) :
    OnGrid 1 (l.scrollTarget index a)
      (doubledTarget item view l.items.size scroll (min index (l.items.size - 1)) a : ℕ) := by
  have htrack := hw.track_lt
  have hreach := hw.reach_lt
  have hlimit := (h.maxScrollOffset_onGrid hw.item_isWhole (by omega) hw.view_isWhole
    (by omega)).refine
  rw [scrollTarget_of_items hn, doubledTarget, Nat.cast_min, Nat.cast_mul 2, Nat.cast_ofNat]
  exact clampScrollOffset_onGrid (h.clamp_aim_onGrid hn hw index a) hlimit

theorem Coherent.window_scrollToIndex (h : l.Coherent) (hn : 0 < l.items.size)
    (hw : l.WholeAt item view scroll) (index : ℕ) (a : Alignment) :
    (l.scrollToIndex index a).state.window
      = wholeWindow
          (doubledTarget item view l.items.size scroll (min index (l.items.size - 1)) a)
          (2 * view) (2 * item) l.items.size l.settings.overscan := by
  have hoffset := (h.scrollTarget_onGrid hn hw index a).congr_beq
    (h.scrollToIndex_scrollOffset index a)
  obtain ⟨hitem, hview, -, htrack, hreach⟩ := hw
  have hpos := h.item_pos_of_isWhole hitem
  have hitem_le := Nat.le_mul_of_pos_left item hn
  have hsize_le := Nat.le_mul_of_pos_right l.items.size hpos
  have htarget : doubledTarget item view l.items.size scroll (min index (l.items.size - 1)) a
      ≤ 2 * (l.items.size * item - view) := Nat.min_le_right ..
  rw [(h.scrollToIndex index a).window_eq_geometry, geometry, scrollToIndex_items,
    scrollToIndex_settings, h.scrollToIndex_extent]
  exact window_eq_wholeWindow_of_grid (g := ⟨_, _, _, _, _⟩) (by norm_num) hoffset
    hitem.onGrid.refine hview.onGrid.refine (by omega) (by omega) (by omega)
    (show l.items.size < 2 ^ 64 by omega)

/-- Scrolling to an item brings it into the window, unless without overscan its end is aligned with
a viewport that has no extent. -/
theorem scrollToIndex_shows_iff (h : Reachable l) (hn : 0 < l.items.size)
    (hw : l.WholeAt item view scroll) (index : ℕ) (a : Alignment) :
    (l.scrollToIndex index a).state.window.contains (min index (l.items.size - 1)) = true
      ↔ ¬ (EndsAtPoint item view scroll (min index (l.items.size - 1)) a
        ∧ l.settings.overscan = 0) := by
  rw [h.coherent.window_scrollToIndex hn hw]
  exact contains_doubledTarget_iff (h.coherent.item_pos_of_isWhole hw.item_isWhole) (by omega) a

/-- Overscan reaches back to the item where the viewport has no extent. -/
theorem scrollToIndex_shows_iff_overscan :
    ∃ l : WindowedList Nat Nat,
      create #[0, 1] { itemExtent := Count.toFloat 24, viewportExtent := Count.toFloat 0 } = .ok l
      ∧ 0 < l.items.size ∧ l.WholeAt 24 0 0
      ∧ ((l.scrollToIndex 5 .trailing).state.window.contains (min 5 (l.items.size - 1)) = true
        ↔ ¬ (EndsAtPoint 24 0 0 (min 5 (l.items.size - 1)) .trailing
          ∧ l.settings.overscan = 0)) := by
  have h : create #[0, 1]
      { itemExtent := Count.toFloat 24, viewportExtent := Count.toFloat 0 }
      = .ok (_ : WindowedList Nat Nat) := rfl
  have hw := create_wholeAt h (isWhole_toFloat (by decide)) (isWhole_toFloat (by decide))
    isWhole_zero (by decide) (by decide)
  exact ⟨_, h, by decide, hw, scrollToIndex_shows_iff (.create h) (by decide) hw 5 .trailing⟩

/-- In a viewport of no extent, the end of the last of two items is aligned at 48, where the track
ends. There is no item there, so the window is empty. -/
theorem end_aligned_not_shown :
    ¬ ∀ (l : WindowedList Nat Nat) (item view scroll : ℕ), Reachable l → 0 < l.items.size →
      l.WholeAt item view scroll → ∀ (index : ℕ) (a : Alignment),
        (l.scrollToIndex index a).state.window.contains (min index (l.items.size - 1)) = true := by
  intro hshows
  have h : create (ι := Nat) #[0, 1]
      { itemExtent := Count.toFloat 24, viewportExtent := Count.toFloat 0, overscan := 0 }
      = .ok _ := rfl
  have hw := create_wholeAt h (isWhole_toFloat (by decide)) (isWhole_toFloat (by decide))
    isWhole_zero (by decide) (by decide)
  exact absurd (hshows _ 24 0 0 (.create h) (by decide) hw 1 .trailing) (by decide +kernel)

end WindowedList

end Windowing
