import Windowing.Proofs.Extent.Monotone
import Windowing.Proofs.Geometry.Overscan

/-!
# Windows in order

A window follows what it is computed from. Scrolling on moves both ends on, a larger viewport moves
the stop on and leaves the start alone, and with more items both ends lie further on or where they
were (`window_monotone`). Positions are compared as they are after clamping, infinity included.

The stop is a minimum of things that are in order. The start is cut to the stop, which would make it
depend on the viewport too, but it is only ever cut to the number of items (`window_start_eq`).
-/

namespace Windowing

namespace Geometry

variable {g g' : Geometry}

/-! ## Other geometries -/

/-- The same geometry, scrolled elsewhere. -/
def scrolledTo (g : Geometry) (scrollOffset : Float) : Geometry := { g with scrollOffset }

/-- The same geometry, seen through another viewport. -/
def seenThrough (g : Geometry) (viewportExtent : Float) : Geometry := { g with viewportExtent }

/-- The same geometry, for another number of items. -/
def withItemCount (g : Geometry) (itemCount : Nat) : Geometry := { g with itemCount }

/-! ## What the ends are computed from -/

theorem firstVisible_mono (he : Extent.isItemSize g.itemExtent = true) {s s' : Float}
    (h : Extent.clamp s ≤ Extent.clamp s') :
    (g.scrolledTo s).firstVisible ≤ (g.scrolledTo s').firstVisible := by
  have hs := Extent.isClamped_clamp s
  have hs' := Extent.isClamped_clamp s'
  exact Extent.floorIndex_mono (hs.div he) (hs'.div he) (hs.div_mono hs' he h)

/-- Where the viewport starts and how large it is may both be different. -/
theorem ceilIndex_stop_mono (he : Extent.isItemSize g.itemExtent = true) {s s' v v' : Float}
    (hs : Extent.clamp s ≤ Extent.clamp s') (hv : Extent.clamp v ≤ Extent.clamp v') :
    Extent.ceilIndex ((Extent.clamp s + Extent.clamp v) / g.itemExtent)
      ≤ Extent.ceilIndex ((Extent.clamp s' + Extent.clamp v') / g.itemExtent) := by
  have hsum := (Extent.isClamped_clamp s).add (Extent.isClamped_clamp v)
  have hsum' := (Extent.isClamped_clamp s').add (Extent.isClamped_clamp v')
  have hle := (Extent.isClamped_clamp s).add_mono (Extent.isClamped_clamp s')
    (Extent.isClamped_clamp v) (Extent.isClamped_clamp v') hs hv
  exact Extent.ceilIndex_mono (hsum.div he) (hsum'.div he) (hsum.div_mono hsum' he hle)

theorem visibleStop_scrolledTo_mono (he : Extent.isItemSize g.itemExtent = true) {s s' : Float}
    (h : Extent.clamp s ≤ Extent.clamp s') :
    (g.scrolledTo s).visibleStop ≤ (g.scrolledTo s').visibleStop := by
  have hceil := ceilIndex_stop_mono he h (Extent.isClamped_clamp g.viewportExtent).le_refl
  have hfirst := firstVisible_mono he h
  exact max_le_max hceil (Count.add_mono_left hfirst 1)

theorem visibleStop_seenThrough_mono (he : Extent.isItemSize g.itemExtent = true) {v v' : Float}
    (h : Extent.clamp v ≤ Extent.clamp v') :
    (g.seenThrough v).visibleStop ≤ (g.seenThrough v').visibleStop := by
  have hceil := ceilIndex_stop_mono he (Extent.isClamped_clamp g.scrollOffset).le_refl h
  exact max_le_max hceil le_rfl

/-! ## Windows -/

theorem window_start_mono (he : Extent.isItemSize g.itemExtent = true)
    (he' : Extent.isItemSize g'.itemExtent = true) (hover : g.overscan = g'.overscan)
    (hcount : g.itemCount ≤ g'.itemCount) (hfirst : g.firstVisible ≤ g'.firstVisible) :
    g.window.start ≤ g'.window.start := by
  rw [window_start_eq he, window_start_eq he', hover]
  omega

theorem window_stop_mono (he : Extent.isItemSize g.itemExtent = true)
    (he' : Extent.isItemSize g'.itemExtent = true) (hover : g.overscan = g'.overscan)
    (hcount : g.itemCount ≤ g'.itemCount) (hstop : g.visibleStop ≤ g'.visibleStop) :
    g.window.stop ≤ g'.window.stop := by
  rw [window_stop_eq he, window_stop_eq he', hover]
  exact min_le_min (Count.add_mono_left hstop _) hcount

/-- Scrolling on moves a window on, a larger viewport extends it at its end only, and more items
never move an end back. -/
theorem window_monotone (hfin : g.itemExtent.isFinite = true) (hpos : 0.0 < g.itemExtent) :
    (∀ s s' : Float, Extent.clamp s ≤ Extent.clamp s' →
        (g.scrolledTo s).window.start ≤ (g.scrolledTo s').window.start
          ∧ (g.scrolledTo s).window.stop ≤ (g.scrolledTo s').window.stop)
      ∧ (∀ v v' : Float, Extent.clamp v ≤ Extent.clamp v' →
        (g.seenThrough v).window.start = (g.seenThrough v').window.start
          ∧ (g.seenThrough v).window.stop ≤ (g.seenThrough v').window.stop)
      ∧ ∀ n n' : Nat, n ≤ n' →
        (g.withItemCount n).window.start ≤ (g.withItemCount n').window.start
          ∧ (g.withItemCount n).window.stop ≤ (g.withItemCount n').window.stop := by
  have he : Extent.isItemSize g.itemExtent = true := Extent.isItemSize_of_pos hfin hpos
  refine ⟨?_, ?_, ?_⟩
  · intro s s' h
    constructor
    · exact window_start_mono he he rfl le_rfl (firstVisible_mono he h)
    · exact window_stop_mono he he rfl le_rfl (visibleStop_scrolledTo_mono he h)
  · intro v v' h
    constructor
    · rw [window_start_eq (g := g.seenThrough v) he, window_start_eq (g := g.seenThrough v') he]
      rfl
    · exact window_stop_mono he he rfl le_rfl (visibleStop_seenThrough_mono he h)
  · intro n n' h
    constructor
    · exact window_start_mono he he rfl h le_rfl
    · exact window_stop_mono he he rfl h le_rfl

/-- From an offset that is no number to infinity, from a negative viewport to one that reaches
past every item, and from no items to five. -/
theorem window_monotone_to_infinity :
    ∃ g : Geometry, g = ⟨30.0, 24.0, 10.0, 5, 1⟩
      ∧ g.itemExtent.isFinite = true ∧ 0.0 < g.itemExtent
      ∧ Extent.clamp (0.0 / 0.0) ≤ Extent.clamp (1.0 / 0.0)
      ∧ (g.scrolledTo (0.0 / 0.0)).window = ⟨0, 2⟩ ∧ (g.scrolledTo (1.0 / 0.0)).window = ⟨5, 5⟩
      ∧ ((g.scrolledTo (0.0 / 0.0)).window.start ≤ (g.scrolledTo (1.0 / 0.0)).window.start
        ∧ (g.scrolledTo (0.0 / 0.0)).window.stop ≤ (g.scrolledTo (1.0 / 0.0)).window.stop)
      ∧ Extent.clamp (-3.0) ≤ Extent.clamp 1000.0
      ∧ (g.seenThrough (-3.0)).window = ⟨0, 3⟩ ∧ (g.seenThrough 1000.0).window = ⟨0, 5⟩
      ∧ ((g.seenThrough (-3.0)).window.start = (g.seenThrough 1000.0).window.start
        ∧ (g.seenThrough (-3.0)).window.stop ≤ (g.seenThrough 1000.0).window.stop)
      ∧ (g.withItemCount 0).window.start ≤ (g.withItemCount 5).window.start
      ∧ (g.withItemCount 0).window.stop ≤ (g.withItemCount 5).window.stop := by
  have h := window_monotone (g := ⟨30.0, 24.0, 10.0, 5, 1⟩) (by decide) (by decide)
  have hs : Extent.clamp (0.0 / 0.0) ≤ Extent.clamp (1.0 / 0.0) := by decide +kernel
  have hv : Extent.clamp (-3.0) ≤ Extent.clamp 1000.0 := by decide +kernel
  exact ⟨_, rfl, by decide, by decide, hs, by decide +kernel, by decide +kernel, h.1 _ _ hs, hv,
    by decide +kernel, by decide +kernel, h.2.1 _ _ hv, h.2.2 0 5 (by decide)⟩

end Geometry

end Windowing
