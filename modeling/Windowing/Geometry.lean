import Windowing.Extent
import Windowing.Window

/-!
# Window geometry

Which items of a list of equally large items have to be rendered, from where the list is
scrolled to and how large the viewport is. Item `i` covers the positions from `i *
itemExtent` up to `(i + 1) * itemExtent`. The window holds the items that meet the
viewport, at least the one under the scroll offset, and `overscan` more at either end;
it is then cut to the items there are.
-/

namespace Windowing

/-- What a window is computed from. -/
structure Geometry where
  scrollOffset : Float
  itemExtent : Float
  viewportExtent : Float
  itemCount : Nat
  overscan : Nat

namespace Geometry

/-- Index of the item under the scroll offset, whether or not there is such an item. -/
def firstVisible (g : Geometry) : Nat :=
  Extent.floorIndex (Extent.clamp g.scrollOffset / g.itemExtent)

/-- One past the last item that meets the viewport. The item under the scroll offset is
always before it, so a viewport without extent still shows that item. -/
def visibleStop (g : Geometry) : Nat :=
  max
    (Extent.ceilIndex
      ((Extent.clamp g.scrollOffset + Extent.clamp g.viewportExtent) / g.itemExtent))
    (Count.add g.firstVisible 1)

/-- The window of a geometry. Without items, or with an item size that is refused
everywhere else, there is nothing to render. Overscan is added once at each end, however
far the list is scrolled, so that even past the last item some items stay rendered. -/
def window (g : Geometry) : Window :=
  if g.itemCount = 0 ∨ Extent.isItemSize g.itemExtent = false then
    .empty
  else
    let stop := min (Count.add g.visibleStop g.overscan) g.itemCount
    ⟨min (g.firstVisible - g.overscan) stop, stop⟩

end Geometry

end Windowing
