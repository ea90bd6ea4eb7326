import Windowing.Extent

/-!
# Rectangles

Axis-aligned rectangles, given by a corner and a size. A size may be negative or no
number at all (an element that is not laid out yet); `Rect.isFinite` tells such geometry
apart, and areas count a negative size as zero.
-/

namespace Windowing

structure Rect where
  x : Float
  y : Float
  width : Float
  height : Float

namespace Rect

def isFinite (r : Rect) : Bool :=
  r.x.isFinite && r.y.isFinite && r.width.isFinite && r.height.isFinite

def right (r : Rect) : Float := r.x + r.width

def bottom (r : Rect) : Float := r.y + r.height

def area (r : Rect) : Float := Extent.positivePart r.width * Extent.positivePart r.height

/-- Two rectangles are the same when their numbers compare equal. -/
instance : BEq Rect where
  beq r s := r.x == s.x && r.y == s.y && r.width == s.width && r.height == s.height

/-- Moves every side outwards by `margin`. A negative margin moves them inwards, but
never past each other: what is left is then an empty rectangle in the middle of `r`. -/
def expand (r : Rect) (margin : Float) : Rect :=
  let width := Extent.positivePart (r.width + 2.0 * margin)
  let height := Extent.positivePart (r.height + 2.0 * margin)
  { x := r.x + (r.width - width) / 2.0
    y := r.y + (r.height - height) / 2.0
    width, height }

/-! ## Intersection -/

/-- The larger of two edges. An edge that is no number gives way to the other, and of
two equal ones the first is taken. -/
def maxEdge (a b : Float) : Float := if a.isNaN then b else if a < b then b else a

/-- The smaller of two edges, with the same rules as `maxEdge`. -/
def minEdge (a b : Float) : Float := if a.isNaN then b else if b < a then b else a

/-- What two rectangles share. Rectangles that only touch share a rectangle
without area. -/
def intersection? (r s : Rect) : Option Rect :=
  let left := maxEdge r.x s.x
  let top := maxEdge r.y s.y
  let right := minEdge r.right s.right
  let bottom := minEdge r.bottom s.bottom
  if right < left ∨ bottom < top then
    none
  else
    some { x := left, y := top, width := right - left, height := bottom - top }

end Rect

end Windowing
