import Windowing.Proofs.WindowedList.Track

/-!
# Scrolling stays on the track

Whatever a list is asked to scroll to, the offset it answers with is a number between zero and
the largest one (`OnTrack`). The arithmetic of alignments does not see to that: a viewport may be
infinite, and so may the end of a long track, and then a difference of the two is no number at all.
But what an alignment aims at is brought onto the track last, where a target that is no number
counts as zero. On the track itself that changes nothing (`OnTrack.clampScrollOffset_beq`).

Scrolling to an item goes to the offset it answers with, and changes nothing but the offset and
the window that belongs to it (`scrolls_on_track`).
-/

namespace Windowing

open Binary

namespace WindowedList

variable {ι α : Type} {l : WindowedList ι α} {x : Float}

/-! ## Offsets -/

/-- An offset on the track: the viewport neither starts before the first item nor reaches past the
last one, unless it is larger than the track. -/
structure OnTrack (l : WindowedList ι α) (x : Float) : Prop where
  number : x.isNaN = false
  not_neg : 0.0 ≤ x
  le_limit : x ≤ l.maxScrollOffset

theorem onTrack_iff_extended :
    l.OnTrack x ↔ Extent.IsClamped x ∧ extended x ≤ extended l.maxScrollOffset := by
  have hlimit := l.isClamped_maxScrollOffset.1
  constructor
  · intro h
    have hneg : ¬ x < 0.0 := (not_lt_iff_le h.number rfl).mpr h.not_neg
    exact ⟨⟨h.number, hneg⟩, (le_iff_extended h.number hlimit).mp h.le_limit⟩
  · rintro ⟨⟨hnumber, hneg⟩, hle⟩
    exact ⟨hnumber, (not_lt_iff_le hnumber rfl).mp hneg, (le_iff_extended hnumber hlimit).mpr hle⟩

theorem onTrack_clampScrollOffset (l : WindowedList ι α) (x : Float) :
    l.OnTrack (l.clampScrollOffset x) :=
  onTrack_iff_extended.mpr ⟨l.isClamped_clampScrollOffset x, l.clampScrollOffset_le_limit x⟩

/-- Even where there is no track, there is its start. -/
theorem onTrack_zero (l : WindowedList ι α) : l.OnTrack 0.0 := by
  have hzero : extended 0.0 = 0 := extended_of_finite rfl
  have hlimit := l.isClamped_maxScrollOffset
  rw [onTrack_iff_extended, hzero]
  exact ⟨Extent.isClamped_zero, (Extent.isClamped_iff_extended hlimit.1).mp hlimit⟩

theorem OnTrack.clampScrollOffset_beq (h : l.OnTrack x) : (l.clampScrollOffset x == x) = true := by
  obtain ⟨hx, hle⟩ := onTrack_iff_extended.mp h
  have hclamp := (l.isClamped_clampScrollOffset x).1
  rw [beq_iff_extended hclamp hx.1, extended_clampScrollOffset, hx.clamp_eq]
  exact min_eq_left hle

theorem clampScrollOffset_idem (l : WindowedList ι α) (x : Float) :
    l.clampScrollOffset (l.clampScrollOffset x) = l.clampScrollOffset x := by
  by_cases h : Extent.clamp x < l.maxScrollOffset
  · rw [clampScrollOffset_of_lt h]
    exact clampScrollOffset_eq_self (Extent.isClamped_clamp x) h
  · have hlimit := l.isClamped_maxScrollOffset
    rw [clampScrollOffset_of_not_lt h]
    refine clampScrollOffset_eq_limit hlimit ?_
    rw [lt_iff_extended hlimit.1 hlimit.1]
    exact lt_irrefl _

theorem onTrack_scrollTarget (l : WindowedList ι α) (index : ℕ) (a : Alignment) :
    l.OnTrack (l.scrollTarget index a) := by
  rcases Nat.eq_zero_or_pos l.items.size with hn | hn
  · rw [scrollTarget, if_pos hn]
    exact l.onTrack_zero
  · rw [scrollTarget_of_items hn]
    exact l.onTrack_clampScrollOffset _

/-! ## Scrolling -/

/-- The list `m` is the list `l` scrolled to an offset: nothing else is different, and the window
is the one for this offset. -/
structure ScrolledTo (l m : WindowedList ι α) (x : Float) : Prop where
  scrollOffset_beq : (m.viewport.scrollOffset == x) = true
  extent_eq : m.viewport.extent = l.viewport.extent
  items_eq : m.items = l.items
  settings_eq : m.settings = l.settings
  window_eq : m.window = m.windowFor x m.viewport.extent

/-- An offset that compares equal to the present one has the present window. -/
theorem Coherent.window_eq_windowFor (h : l.Coherent)
    (hx : (l.viewport.scrollOffset == x) = true) :
    l.window = l.windowFor x l.viewport.extent := by
  have hsame := (beq_iff_same.mp hx).1
  rw [h.window_eq]
  exact Geometry.window_congr hsame.clamp (Same.refl _)

theorem Coherent.scrolledTo_scrollToIndex (h : l.Coherent) (index : ℕ) (a : Alignment) :
    l.ScrolledTo (l.scrollToIndex index a).state (l.scrollTarget index a) where
  scrollOffset_beq := h.scrollToIndex_scrollOffset index a
  extent_eq := h.scrollToIndex_extent index a
  items_eq := scrollToIndex_items l index a
  settings_eq := scrollToIndex_settings l index a
  window_eq := by
    have hoffset := h.scrollToIndex_scrollOffset index a
    exact (h.scrollToIndex index a).window_eq_windowFor hoffset

/-- Every offset that a list gives for scrolling is on its track, and bringing an offset onto the
track leaves alone what is there. Scrolling to an item goes to the offset given for it. -/
theorem scrolls_on_track (h : Reachable l) :
    (∀ x, l.OnTrack (l.clampScrollOffset x)
        ∧ (l.OnTrack x → (l.clampScrollOffset x == x) = true)
        ∧ l.clampScrollOffset (l.clampScrollOffset x) = l.clampScrollOffset x)
      ∧ ∀ index a, l.OnTrack (l.scrollTarget index a)
        ∧ (l.scrollToIndex index a).result = l.scrollTarget index a
        ∧ l.ScrolledTo (l.scrollToIndex index a).state (l.scrollTarget index a) := by
  constructor
  · intro x
    exact ⟨l.onTrack_clampScrollOffset x, OnTrack.clampScrollOffset_beq,
      l.clampScrollOffset_idem x⟩
  · intro index a
    exact ⟨l.onTrack_scrollTarget index a, rfl, h.coherent.scrolledTo_scrollToIndex index a⟩

/-- Inside a batch, with an infinite viewport, and three items of a size of `2 ^ 1023`, whose track
is too long for a float. To align the end of the last item is to aim at what is no number. -/
theorem scrolls_on_track_infinite :
    ∃ l m : WindowedList Nat Nat,
      create #[0, 1, 2] { itemExtent := .ofBits 0x7fe0000000000000, viewportExtent := 15.0 } = .ok l
      ∧ m = (l.openBatch.apply (.viewportExtent (1.0 / 0.0))).state ∧ Reachable m
      ∧ m.totalExtent = 1.0 / 0.0 ∧ m.viewport.extent = 1.0 / 0.0
      ∧ (m.aim 2 .trailing).isNaN = true
      ∧ m.OnTrack (m.clampScrollOffset 7.0)
      ∧ m.OnTrack (m.scrollTarget 2 .trailing)
      ∧ (m.scrollToIndex 2 .trailing).result = m.scrollTarget 2 .trailing
      ∧ m.ScrolledTo (m.scrollToIndex 2 .trailing).state (m.scrollTarget 2 .trailing) := by
  have h : create #[0, 1, 2] { itemExtent := .ofBits 0x7fe0000000000000, viewportExtent := 15.0 }
      = .ok (_ : WindowedList Nat Nat) := rfl
  have hm := (Reachable.create h).openBatch.apply (.viewportExtent (1.0 / 0.0))
  obtain ⟨hclamp, hscroll⟩ := scrolls_on_track hm
  exact ⟨_, _, h, rfl, hm, by decide +kernel, by decide +kernel, by decide +kernel,
    (hclamp 7.0).1, hscroll 2 .trailing⟩

end WindowedList

end Windowing
