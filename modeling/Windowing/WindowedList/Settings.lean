import Windowing.Extent
import Windowing.SettingError
import Windowing.Text.Record

/-!
# Settings of a windowed list

How large the items and the viewport are, how many items are rendered beyond the visible
ones, and who is told of changes.
-/

namespace Windowing

structure ListSettings (ι : Type) where
  /-- Size of every item along the scroll axis. -/
  itemExtent : Float
  /-- Extent of the viewport when the list is created. -/
  viewportExtent : Float
  /-- How many items are rendered before and after the visible ones. -/
  overscan : Nat := 5
  /-- Offset the list is scrolled to when it is created; clamped, never refused. -/
  initialOffset : Float := 0.0
  /-- Told of every change of the window or the items. -/
  listener : Option ι := none

namespace ListSettings

variable {ι : Type}

/-- Refuses sizes that no window can be computed from. When both are wrong, the item
size is reported. -/
def check (s : ListSettings ι) : Except SettingError Unit :=
  if Extent.isItemSize s.itemExtent = false then
    .error (.itemExtent s.itemExtent)
  else if s.viewportExtent.isFinite = false ∨ s.viewportExtent < 0.0 then
    .error (.viewportExtent s.viewportExtent)
  else
    .ok ()

def describe (s : ListSettings ι) : String :=
  let number := NumberStyle.record.write
  Text.record "VirtualListOptions"
    [("item_extent", number s.itemExtent), ("viewport_extent", number s.viewportExtent),
      ("overscan", toString s.overscan), ("initial_offset", number s.initialOffset)]
    true

end ListSettings

end Windowing
