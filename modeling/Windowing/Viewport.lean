import Windowing.Extent

/-!
# Viewports

Where the viewport lies along the scroll axis: the offset it is scrolled to and its
extent.
-/

namespace Windowing

/-- A stretch of the scroll axis. A list only ever holds viewports that
`Viewport.clamped` built; a snapshot that was put together by hand may hold anything. -/
structure Viewport where
  scrollOffset : Float
  extent : Float

namespace Viewport

/-- The viewport for an offset and an extent as they were measured. -/
def clamped (scrollOffset extent : Float) : Viewport :=
  ⟨Extent.clamp scrollOffset, Extent.clamp extent⟩

/-- Where the viewport ends. -/
def stop (v : Viewport) : Float := v.scrollOffset + v.extent

/-- Two viewports are the same when their numbers compare equal, so the two zeros are
not told apart. -/
instance : BEq Viewport where
  beq v w := v.scrollOffset == w.scrollOffset && v.extent == w.extent

end Viewport

end Windowing
