import Windowing.Geometry
import Windowing.Step
import Windowing.Viewport
import Windowing.WindowedList.Settings

/-!
# Windowed lists

A list of equally large items of which only a window is rendered. The list does not
render: it is fed with scroll offsets and viewport sizes, keeps the window up to date
after every change, and tells its listener. Inside a batch the listener is told once, at
the end of the outermost batch, and only if something changed.

The window is computed when something changes and then kept, so that reading it costs
nothing. Copies of a list are independent of each other, but a copy taken inside a batch
is still inside it.
-/

namespace Windowing

/-- A list of items with the window of them that is rendered. -/
structure WindowedList (ι α : Type) where
  items : Array α
  settings : ListSettings ι
  viewport : Viewport
  window : Window
  /-- How many batches are open around this list. -/
  batchDepth : Nat
  /-- Whether something changed in the open batch. -/
  changePending : Bool

/-- A listener being told of a change: it is handed the list as it is then. -/
abbrev ChangeNotice (ι α : Type) : Type := Call ι (WindowedList ι α)

/-- An operation on a list, with what its listener was told. -/
abbrev ListStep (ι α ρ : Type) : Type := Step (WindowedList ι α) (ChangeNotice ι α) ρ

namespace WindowedList

variable {ι α ρ : Type}

/-! ## The window -/

/-- What the window for a viewport is computed from. -/
def geometry (l : WindowedList ι α) (v : Viewport) : Geometry where
  scrollOffset := v.scrollOffset
  itemExtent := l.settings.itemExtent
  viewportExtent := v.extent
  itemCount := l.items.size
  overscan := l.settings.overscan

/-- The window that the list would have with another viewport. -/
def windowFor (l : WindowedList ι α) (scrollOffset extent : Float) : Window :=
  (l.geometry (Viewport.clamped scrollOffset extent)).window

/-- Brings the window up to date. -/
def refresh (l : WindowedList ι α) : WindowedList ι α :=
  { l with window := (l.geometry l.viewport).window }

/-- A list at its initial offset, outside any batch. -/
def create (items : Array α) (settings : ListSettings ι) :
    Except SettingError (WindowedList ι α) :=
  settings.check.map fun _ =>
    refresh
      { items, settings
        viewport := Viewport.clamped settings.initialOffset settings.viewportExtent
        window := .empty, batchDepth := 0, changePending := false }

/-! ## Telling the listener -/

/-- The listener's call for the list as it is now. -/
def announce (l : WindowedList ι α) : List (ChangeNotice ι α) :=
  Call.deliver l.settings.listener l

/-- Tells the listener of a change, or notes it for the end of the batch. -/
def notify (l : WindowedList ι α) : ListStep ι α Unit :=
  if 0 < l.batchDepth then .quiet { l with changePending := true } () else ⟨l, l.announce, ()⟩

/-- Enters a batch. -/
def openBatch (l : WindowedList ι α) : WindowedList ι α :=
  { l with batchDepth := Count.add l.batchDepth 1 }

/-- Leaves a batch. Leaving the outermost one tells the listener if
something changed. -/
def closeBatch (l : WindowedList ι α) : ListStep ι α Unit :=
  let l := { l with batchDepth := l.batchDepth - 1 }
  if l.batchDepth = 0 ∧ l.changePending then
    let l := { l with changePending := false }
    ⟨l, l.announce, ()⟩
  else
    .quiet l ()

/-- Runs several updates as one. -/
def batch (body : WindowedList ι α → ListStep ι α ρ) (l : WindowedList ι α) :
    ListStep ι α ρ :=
  (body l.openBatch).andThen fun l r => l.closeBatch.map fun _ => r

/-! ## Changes -/

/-- Replaces the settings; the viewport stays as it is. Settings that are refused
change nothing. -/
def setSettings (l : WindowedList ι α) (settings : ListSettings ι) :
    ListStep ι α (Except SettingError Unit) :=
  match settings.check with
  | .error e => .quiet l (.error e)
  | .ok () => (notify (refresh { l with settings })).map .ok

def setOverscan (l : WindowedList ι α) (overscan : Nat) : ListStep ι α Unit :=
  if l.settings.overscan = overscan then
    .quiet l ()
  else
    notify (refresh { l with settings := { l.settings with overscan } })

/-- Installs or removes the listener. This is no change to be told of. -/
def setListener (l : WindowedList ι α) (listener : Option ι) : WindowedList ι α :=
  { l with settings := { l.settings with listener } }

/-- Replaces the items. From now on indexes mean the new ones; the listener is told even
if the window is the same. -/
def setItems (l : WindowedList ι α) (items : Array α) : ListStep ι α Unit :=
  notify (refresh { l with items })

/-- Moves to a viewport, unless it is the present one. -/
def moveTo (l : WindowedList ι α) (v : Viewport) : ListStep ι α Unit :=
  if l.viewport == v then .quiet l () else notify (refresh { l with viewport := v })

/-- Takes in a measured viewport. -/
def setViewport (l : WindowedList ι α) (scrollOffset extent : Float) :
    ListStep ι α Unit :=
  l.moveTo (Viewport.clamped scrollOffset extent)

def setScrollOffset (l : WindowedList ι α) (scrollOffset : Float) : ListStep ι α Unit :=
  l.setViewport scrollOffset l.viewport.extent

def setViewportExtent (l : WindowedList ι α) (extent : Float) : ListStep ι α Unit :=
  l.setViewport l.viewport.scrollOffset extent

/-- Goes back to a snapshot of the viewport. Snapshots may come from anywhere, so they
are clamped like measurements. -/
def restore (l : WindowedList ι α) (v : Viewport) : ListStep ι α Unit :=
  l.setViewport v.scrollOffset v.extent

end WindowedList

end Windowing
