import Windowing.Proofs.WindowedList.Coherence
import Windowing.WindowedList.Entries

/-!
# Moving the viewport

A coherent list that is moved ends up at a viewport that compares equal to the one asked
for, and keeps the part of its viewport that was not asked about
(`Coherent.setScrollOffset_viewport`, `Coherent.setViewportExtent_viewport`). Where two
lists of the same shape are at viewports that compare equal, everything that is rendered
from them is the same (`showsSame_of_viewport`), though a zero in one may have the
other sign.
-/

namespace Windowing

open Binary

namespace Viewport

variable {v w : Viewport}

theorem beq_iff_same : (v == w) = true ↔
    (v.scrollOffset == w.scrollOffset) = true ∧ (v.extent == w.extent) = true :=
  Bool.and_eq_true_iff

theorem IsClamped.beq_self (h : v.IsClamped) : (v == v) = true :=
  beq_iff_same.mpr ⟨Binary.beq_self h.1.1, Binary.beq_self h.2.1⟩

end Viewport

namespace WindowedList

variable {ι α : Type} {l m : WindowedList ι α}

/-! ## Where a move ends -/

theorem moveTo_items (l : WindowedList ι α) (v : Viewport) :
    (l.moveTo v).state.items = l.items := by
  unfold moveTo
  split
  · rfl
  · rw [notify_state]
    rfl

theorem moveTo_settings (l : WindowedList ι α) (v : Viewport) :
    (l.moveTo v).state.settings = l.settings := by
  unfold moveTo
  split
  · rfl
  · rw [notify_state]
    rfl

theorem moveTo_viewport (l : WindowedList ι α) (v : Viewport) :
    (l.moveTo v).state.viewport = if l.viewport == v then l.viewport else v := by
  unfold moveTo
  split
  · rfl
  · rw [notify_state]
    rfl

theorem moveTo_events_length (l : WindowedList ι α) (v : Viewport) :
    (l.moveTo v).events.length ≤ 1 := by
  unfold moveTo
  split
  · exact Nat.zero_le 1
  · unfold notify
    split
    · exact Nat.zero_le 1
    · unfold announce Call.deliver
      simp only
      split
      · exact Nat.zero_le 1
      · exact Nat.le_refl 1

theorem Coherent.setScrollOffset_viewport (h : l.Coherent) (x : Float) :
    ((l.setScrollOffset x).state.viewport.scrollOffset == Extent.clamp x) = true
      ∧ (l.setScrollOffset x).state.viewport.extent = l.viewport.extent := by
  have hclamp : Viewport.clamped x l.viewport.extent = ⟨Extent.clamp x, l.viewport.extent⟩ := by
    rw [Viewport.clamped, h.viewport.2.clamp_eq]
  rw [WindowedList.setScrollOffset, setViewport, hclamp, moveTo_viewport]
  split
  · rename_i heq
    exact ⟨(Viewport.beq_iff_same.mp heq).1, rfl⟩
  · exact ⟨beq_self (Extent.isClamped_clamp x).1, rfl⟩

theorem Coherent.setViewportExtent_viewport (h : l.Coherent) (e : Float) :
    (l.setViewportExtent e).state.viewport =
      ⟨l.viewport.scrollOffset,
        if l.viewport.extent == Extent.clamp e then l.viewport.extent else Extent.clamp e⟩ := by
  have hclamp : Viewport.clamped l.viewport.scrollOffset e
      = ⟨l.viewport.scrollOffset, Extent.clamp e⟩ := by
    rw [Viewport.clamped, h.viewport.1.clamp_eq]
  have hbeq : (l.viewport == ⟨l.viewport.scrollOffset, Extent.clamp e⟩)
      = (l.viewport.extent == Extent.clamp e) := by
    show (_ && _) = _
    rw [beq_self h.scroll_number, Bool.true_and]
  rw [WindowedList.setViewportExtent, setViewport, hclamp, moveTo_viewport, hbeq]
  split <;> rfl

theorem moveTo_viewport_beq {v : Viewport} (hv : v.IsClamped) (l : WindowedList ι α) :
    ((l.moveTo v).state.viewport == v) = true := by
  rw [moveTo_viewport]
  split
  · assumption
  · exact hv.beq_self

theorem setScrollOffset_scrollOffset (l : WindowedList ι α) (x : Float) :
    ((l.setScrollOffset x).state.viewport.scrollOffset == Extent.clamp x) = true :=
  (Viewport.beq_iff_same.mp (moveTo_viewport_beq (Viewport.isClamped_clamped ..) l)).1

/-- Another size leaves the viewport where it starts. -/
theorem setViewportExtent_scrollOffset (h : Extent.IsClamped l.viewport.scrollOffset) (e : Float) :
    (l.setViewportExtent e).state.viewport.scrollOffset = l.viewport.scrollOffset := by
  rw [WindowedList.setViewportExtent, setViewport, moveTo_viewport]
  split
  · rfl
  · exact h.clamp_eq

theorem moveTo_of_beq {v : Viewport} (h : (l.viewport == v) = true) :
    l.moveTo v = .quiet l () :=
  if_pos h

theorem Coherent.restore_viewport_beq {κ β : Type} (h : l.Coherent) (m : WindowedList κ β) :
    ((m.restore l.viewport).state.viewport == l.viewport) = true := by
  rw [restore, setViewport, h.viewport.clamped_eq]
  exact moveTo_viewport_beq h.viewport m

/-! ## Lists that show the same -/

/-- Lists of the same shape at viewports that compare equal have the same window, whatever their
items are. -/
theorem Coherent.window_eq_of_viewport {κ β : Type} {m : WindowedList κ β} (hl : l.Coherent)
    (hm : m.Coherent) (hsize : l.items.size = m.items.size)
    (hitem : l.settings.itemExtent = m.settings.itemExtent)
    (hoverscan : l.settings.overscan = m.settings.overscan)
    (hview : (l.viewport == m.viewport) = true) : l.window = m.window := by
  obtain ⟨hscroll, hextent⟩ := Viewport.beq_iff_same.mp hview
  rw [hl.window_eq_geometry, hm.window_eq_geometry, geometry, geometry, hsize, hitem, hoverscan]
  exact Geometry.window_congr (beq_iff_same.mp hscroll).1 (beq_iff_same.mp hextent).1

/-- Nothing that is rendered tells the two lists apart. -/
structure ShowsSame (l m : WindowedList ι α) : Prop where
  viewport_beq : (l.viewport == m.viewport) = true
  window_eq : l.window = m.window
  placementOffset_eq : l.placementOffset = m.placementOffset
  collectIndexes_eq : ∀ buffer, l.collectIndexes buffer = m.collectIndexes buffer

theorem showsSame_of_viewport (hl : l.Coherent) (hm : m.Coherent)
    (hsize : l.items.size = m.items.size)
    (hitem : l.settings.itemExtent = m.settings.itemExtent)
    (hoverscan : l.settings.overscan = m.settings.overscan)
    (hview : (l.viewport == m.viewport) = true) : ShowsSame l m := by
  have hwindow := hl.window_eq_of_viewport hm hsize hitem hoverscan hview
  refine ⟨hview, hwindow, ?_, fun buffer => ?_⟩
  · rw [placementOffset, placementOffset, offsetOf, offsetOf, hwindow, hitem]
  · rw [collectIndexes, collectIndexes, hwindow]

end WindowedList

end Windowing
