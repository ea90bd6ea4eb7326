import Windowing.WindowedList.Basic

/-!
# Positions and scrolling

Where the items of a windowed list lie, which item lies at a position, and how to scroll
so that an item comes into view. Offsets to scroll to are kept on the track: at least
zero, and never so large that the viewport would reach past the last item.
-/

namespace Windowing

/-- Where in the viewport an item is to appear. -/
inductive Alignment where
  /-- At the start of the viewport. -/
  | leading
  /-- In the middle. -/
  | centered
  /-- At the end. -/
  | trailing
  /-- Where it is, if it is in view as a whole. Otherwise at the start if it begins before
  the viewport does, and at the end if not. -/
  | nearest
  deriving DecidableEq

namespace WindowedList

variable {ι α : Type}

/-! ## Positions -/

/-- Where cell `index` starts, whether or not there is an item in it. -/
def offsetOf (l : WindowedList ι α) (index : Nat) : Float :=
  Count.toFloat index * l.settings.itemExtent

/-- Where an item starts. -/
def itemOffset? (l : WindowedList ι α) (index : Nat) : Option Float :=
  if index < l.items.size then some (l.offsetOf index) else none

/-- Where the first rendered item starts: the rendered block is moved there. -/
def placementOffset (l : WindowedList ι α) : Float := l.offsetOf l.window.start

/-- Length of the track that all items take up together. -/
def totalExtent (l : WindowedList ι α) : Float := l.offsetOf l.items.size

/-- Index of the item at a position; past the end it is the last one. -/
def indexAtOffset? (l : WindowedList ι α) (offset : Float) : Option Nat :=
  if l.items.size = 0 then
    none
  else
    some <| min (Extent.floorIndex (Extent.clamp offset / l.settings.itemExtent))
      (l.items.size - 1)

/-! ## Scroll targets -/

/-- The largest offset to scroll to: the viewport then ends where the track does. -/
def maxScrollOffset (l : WindowedList ι α) : Float :=
  Extent.positivePart (l.totalExtent - l.viewport.extent)

/-- Brings an offset onto the track. -/
def clampScrollOffset (l : WindowedList ι α) (offset : Float) : Float :=
  let offset := Extent.clamp offset
  if offset < l.maxScrollOffset then offset else l.maxScrollOffset

/-- The offset that brings an item to its place in the viewport. An index past the end
means the last item. An item that is in view as a whole is left where it is by
`Alignment.nearest`. -/
def scrollTarget (l : WindowedList ι α) (index : Nat) (alignment : Alignment) : Float :=
  if l.items.size = 0 then
    0.0
  else
    let start := l.offsetOf (min index (l.items.size - 1))
    let stop := start + l.settings.itemExtent
    let view := l.viewport.extent
    l.clampScrollOffset <|
      match alignment with
      | .leading => start
      | .trailing => stop - view
      | .centered => start + l.settings.itemExtent / 2.0 - view / 2.0
      | .nearest =>
        let present := l.viewport.scrollOffset
        if present ≤ start ∧ stop ≤ present + view then present
        else if start < present then start
        else stop - view

/-- Scrolls to an item and answers with the offset scrolled to. -/
def scrollToIndex (l : WindowedList ι α) (index : Nat) (alignment : Alignment) :
    ListStep ι α Float :=
  let target := l.scrollTarget index alignment
  (l.setScrollOffset target).map fun _ => target

end WindowedList

end Windowing
