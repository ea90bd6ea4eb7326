import Windowing.WindowedList.Scrolling

/-!
# Entries of the window

Ways of reading what has to be rendered: as a fold over the entries, as an array of
them, as their indexes, or through a function that renders one item.
-/

namespace Windowing

/-- An item of the window, with its index in the whole list and where it starts. -/
structure Entry (α : Type) where
  index : Nat
  item : α
  offset : Float

namespace Entry

variable {α : Type}

/-- Entries are the same when index, offset and item compare equal. -/
instance [BEq α] : BEq (Entry α) where
  beq e f := e.index == f.index && e.offset == f.offset && e.item == f.item

def describe (describeItem : α → String) (e : Entry α) : String :=
  Text.record "VisibleEntry"
    [("index", toString e.index), ("item", describeItem e.item),
      ("offset", NumberStyle.record.write e.offset)]
    false

end Entry

namespace WindowedList

variable {ι α β : Type}

/-- The items of the window. -/
def renderedItems (l : WindowedList ι α) : Array α :=
  l.items.extract l.window.start l.window.stop

/-- Visits the entries of the window in ascending order. -/
def foldEntries (l : WindowedList ι α) (f : β → Entry α → β) (b : β) : β :=
  (l.renderedItems.toList.zipIdx l.window.start).foldl
    (fun b (item, index) => f b ⟨index, item, l.offsetOf index⟩) b

def entries (l : WindowedList ι α) : Array (Entry α) :=
  l.foldEntries (fun out e => out.push e) #[]

/-- Puts the indexes of the window into a buffer, in place of what it held. -/
def collectIndexes (l : WindowedList ι α) (buffer : Array Nat) : Array Nat :=
  l.window.indexes.foldl (fun out i => out.push i) (buffer.shrink 0)

/-- Renders every entry of the window, each once and in ascending order. Rendering may do
more than give a value: whatever the monad stands for is done on the way. -/
def renderWith {m : Type → Type} [Monad m] (l : WindowedList ι α) (render : α → Nat → m β) :
    m (Array β) :=
  l.foldEntries
    (fun rendered e => do
      let out ← rendered
      return out.push (← render e.item e.index))
    (pure #[])

end WindowedList

end Windowing
