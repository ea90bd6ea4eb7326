import Windowing.Rect
import Windowing.Single

/-!
# Sightings

A sighting says whether a region is in view and how much of it. It is measured from the
rectangles of the region and of the viewport, the viewport grown by a margin so that
regions are noticed before they appear.
-/

namespace Windowing

/-- A report on a region. A region without area that touches the viewport counts as
wholly visible. -/
structure Sighting where
  intersecting : Bool
  /-- The visible part of the region's area. -/
  ratio : Float32

namespace Sighting

/-- The region is out of view. -/
def absent : Sighting := ⟨false, 0.0⟩

/-- Brings a quotient of areas into the range from zero to one. A quotient that is no
number (two areas that overflow) stays what it is. -/
def clampFraction (x : Float) : Float := if x < 0.0 then 0.0 else if 1.0 < x then 1.0 else x

/-- The part of a region that lies inside `overlap`. -/
def fraction (overlap region : Rect) : Float :=
  if 0.0 < region.area then clampFraction (overlap.area / region.area) else 1.0

/-- Measures a region against the viewport grown by `margin` on every side. Geometry
that is not finite is never in view. -/
def measure (region viewport : Rect) (margin : Float) : Sighting :=
  if region.isFinite && viewport.isFinite && margin.isFinite then
    match region.intersection? (viewport.expand margin) with
    | none => absent
    | some overlap => ⟨true, roundToSingle (fraction overlap region)⟩
  else
    absent

end Sighting

end Windowing
