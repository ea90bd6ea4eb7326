import Windowing.Proofs.WindowedList.Moving
import Windowing.Proofs.WindowedList.Reading

/-!
# Replaying a viewport

A viewport that a list has just taken in is no news to it (`AtRest`): the same measurement again,
as a whole or one number of it, and the snapshot that the list itself gives of its viewport, change
nothing and are told to nobody. A list compares with `==`, so this needs that it never holds what is
no number, for that would be different from itself. A zero may be held with the other sign than the
one that was measured, which no later measurement brings to light.

What a list shows depends on its viewport alone, besides the shape of the list. So a snapshot leads
every list of that shape to the same places, whatever either of them has been through
(`replay_silent_and_history_free`), and whatever their items are.
-/

namespace Windowing

open Binary

namespace WindowedList

variable {ι α κ β : Type} {l : WindowedList ι α} {m : WindowedList κ β} {s v : Float}

/-! ## The same viewport again -/

/-- The list is at the viewport that was measured as `s` and `v`: measuring it again, in whatever
way, leaves the list as it is, and nobody is told. -/
structure AtRest (l : WindowedList ι α) (s v : Float) : Prop where
  setViewport : l.setViewport s v = .quiet l ()
  restore_measured : l.restore ⟨s, v⟩ = .quiet l ()
  restore_own : l.restore l.viewport = .quiet l ()
  setScrollOffset : l.setScrollOffset s = .quiet l ()
  setViewportExtent : l.setViewportExtent v = .quiet l ()

theorem Coherent.atRest (h : l.Coherent) (hview : (l.viewport == Viewport.clamped s v) = true) :
    l.AtRest s v := by
  obtain ⟨hscroll, hextent⟩ := Viewport.beq_iff_same.mp hview
  have hagain : l.setViewport s v = .quiet l () := moveTo_of_beq hview
  refine ⟨hagain, hagain, ?_, ?_, ?_⟩
  · rw [restore, WindowedList.setViewport, h.viewport.clamped_eq]
    exact moveTo_of_beq h.viewport.beq_self
  · -- The extent is the one that the list has, and compares equal to itself.
    refine moveTo_of_beq (Viewport.beq_iff_same.mpr ⟨hscroll, ?_⟩)
    rw [Viewport.clamped, h.viewport.2.clamp_eq]
    exact Binary.beq_self h.extent_number
  · refine moveTo_of_beq (Viewport.beq_iff_same.mpr ⟨?_, hextent⟩)
    rw [Viewport.clamped, h.viewport.1.clamp_eq]
    exact Binary.beq_self h.scroll_number

theorem Coherent.atRest_setViewport (h : l.Coherent) (s v : Float) :
    (l.setViewport s v).state.AtRest s v := by
  have hmoved : (l.setViewport s v).state.Coherent := h.apply (.viewport s v)
  exact hmoved.atRest (moveTo_viewport_beq (Viewport.isClamped_clamped s v) l)

/-! ## The same viewport elsewhere -/

/-- The two lists show the same places: the same run of indexes, each at the same offset. -/
structure SamePlaces (l : WindowedList ι α) (m : WindowedList κ β) : Prop where
  window_eq : l.window = m.window
  placementOffset_eq : l.placementOffset = m.placementOffset
  collectIndexes_eq : ∀ buffer, l.collectIndexes buffer = m.collectIndexes buffer
  offsets_eq : l.entries.map (·.offset) = m.entries.map (·.offset)

theorem Coherent.offsets_entries (h : l.Coherent) :
    l.entries.map (·.offset) = (l.window.indexes.map l.offsetOf).toArray := by
  refine Array.toList_inj.mp ?_
  rw [Array.toList_map, toList_entries, h.offsets_placed]

theorem samePlaces_of_viewport (hl : l.Coherent) (hm : m.Coherent)
    (hsize : l.items.size = m.items.size)
    (hitem : l.settings.itemExtent = m.settings.itemExtent)
    (hoverscan : l.settings.overscan = m.settings.overscan)
    (hview : (l.viewport == m.viewport) = true) : SamePlaces l m := by
  have hwindow := hl.window_eq_of_viewport hm hsize hitem hoverscan hview
  have hoffset : l.offsetOf = m.offsetOf := by
    funext i
    rw [offsetOf, offsetOf, hitem]
  refine ⟨hwindow, ?_, ?_, ?_⟩
  · rw [placementOffset, placementOffset, hoffset, hwindow]
  · intro buffer
    rw [collectIndexes, collectIndexes, hwindow]
  · rw [hl.offsets_entries, hm.offsets_entries, hoffset, hwindow]

/-- Wherever a list has been, also inside a batch: once it took in a viewport, taking it in again
is silent, and any other list of the same shape can be brought to the same places with a snapshot
of its viewport. -/
theorem replay_silent_and_history_free (h : Reachable l) :
    (∀ s v, (l.setViewport s v).state.AtRest s v)
      ∧ ∀ {κ β : Type} (m : WindowedList κ β), Reachable m →
        m.items.size = l.items.size →
        (m.settings.itemExtent == l.settings.itemExtent) = true →
        m.settings.overscan = l.settings.overscan →
        SamePlaces (m.restore l.viewport).state l := by
  constructor
  · intro s v
    exact h.coherent.atRest_setViewport s v
  · intro κ β m hm hsize hitem hoverscan
    have hrestored : (m.restore l.viewport).state.Coherent :=
      hm.coherent.apply (.restore l.viewport)
    have hitems : (m.restore l.viewport).state.items = m.items := moveTo_items m _
    have hsettings : (m.restore l.viewport).state.settings = m.settings := moveTo_settings m _
    refine samePlaces_of_viewport hrestored h.coherent ?_ ?_ ?_ (h.coherent.restore_viewport_beq m)
    · rw [hitems, hsize]
    · rw [hsettings]
      exact Extent.eq_of_beq hm.coherent.item hitem
    · rw [hsettings, hoverscan]

/-- A list that is at the negative zero takes in what is no number, which counts as the positive
one. A list of other items, scrolled away and inside a batch, follows it to its places. -/
theorem replay_silent_and_history_free_zeros :
    ∃ (l l' : WindowedList Nat Nat) (m m' : WindowedList Nat String),
      create #[0, 1, 2] { itemExtent := 10.0, viewportExtent := 15.0, initialOffset := -0.0 }
        = .ok l
      ∧ l' = (l.setViewport (0.0 / 0.0) 15.0).state
      ∧ l'.viewport.scrollOffset.toBits = (-0.0 : Float).toBits ∧ l'.AtRest (0.0 / 0.0) 15.0
      ∧ create #["a", "b", "c"] { itemExtent := 10.0, viewportExtent := 0.0 } = .ok m
      ∧ m' = (m.openBatch.apply (.scrollOffset 25.0)).state
      ∧ Reachable l ∧ Reachable m' ∧ m'.items.size = l.items.size
      ∧ (m'.settings.itemExtent == l.settings.itemExtent) = true
      ∧ m'.settings.overscan = l.settings.overscan
      ∧ SamePlaces (m'.restore l.viewport).state l := by
  have hl : create #[0, 1, 2]
      { itemExtent := 10.0, viewportExtent := 15.0, initialOffset := -0.0 }
      = .ok (_ : WindowedList Nat Nat) := rfl
  have hm : create #["a", "b", "c"] { itemExtent := 10.0, viewportExtent := 0.0 }
      = .ok (_ : WindowedList Nat String) := rfl
  have hmoved := (Reachable.create hm).openBatch.apply (.scrollOffset 25.0)
  obtain ⟨hrest, hreplay⟩ := replay_silent_and_history_free (Reachable.create hl)
  exact ⟨_, _, _, _, hl, rfl, by decide +kernel, hrest (0.0 / 0.0) 15.0, hm, rfl,
    .create hl, hmoved, rfl, by decide +kernel, rfl, hreplay _ hmoved rfl (by decide +kernel) rfl⟩

end WindowedList

end Windowing
