import Windowing.Count

/-!
# Extents

A length or a position along the scroll axis is a float. Values that come from outside
are brought into shape once, by `Extent.clamp`, and turned into indexes by
`Extent.floorIndex` and `Extent.ceilIndex`, which need no rounding functions: for a
value that is not negative, dropping the fraction is the floor, and the ceiling is one
more exactly when something was dropped.
-/

namespace Windowing

namespace Extent

/-- Whether items may have this size: positions are found by dividing by it, so it is
finite and above zero. -/
def isItemSize (x : Float) : Bool := x.isFinite && 0.0 < x

/-- Negative values and values that are no number count as zero; all others stay as they
are, infinity and the negative zero included. -/
def clamp (x : Float) : Float := if x.isNaN || x < 0.0 then 0.0 else x

/-- The value where it is above zero, and the positive zero elsewhere. Unlike `clamp` it
has no negative zero. -/
def positivePart (x : Float) : Float := if 0.0 < x then x else 0.0

/-- Index of the cell that holds position `x`, for cells of unit size. Positions past
the largest count are held there. -/
def floorIndex (x : Float) : Nat := x.toUInt64.toNat

/-- Number of unit cells needed to reach position `x`: one more than the whole cells
before it when the last cell is cut. -/
def ceilIndex (x : Float) : Nat :=
  let whole := floorIndex x
  if Count.toFloat whole < x then Count.add whole 1 else whole

theorem floorIndex_le_limit (x : Float) : floorIndex x ≤ Count.limit :=
  Nat.le_sub_one_of_lt x.toUInt64.toNat_lt

theorem floorIndex_le_ceilIndex (x : Float) : floorIndex x ≤ ceilIndex x := by
  simp only [ceilIndex]
  split
  · exact Count.le_add_left (floorIndex_le_limit x)
  · exact Nat.le_refl _

theorem ceilIndex_le_limit (x : Float) : ceilIndex x ≤ Count.limit := by
  simp only [ceilIndex]
  split
  · exact Count.add_le_limit ..
  · exact floorIndex_le_limit x

end Extent

end Windowing
