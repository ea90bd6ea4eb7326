import Windowing.WindowedList.Scrolling

/-!
# Updates and scripts

The changes that can be made to a windowed list, as data: an `Update` is one of them,
and a `Script` is a sequence of updates with batches, which may be nested. Running a
script and running its updates one by one (`Script.updates`) differ only in what the
listener is told.
-/

namespace Windowing

/-- A change to a windowed list. -/
inductive Update (ι α : Type) where
  | viewport (scrollOffset extent : Float)
  | scrollOffset (offset : Float)
  | viewportExtent (extent : Float)
  | restore (snapshot : Viewport)
  | overscan (count : Nat)
  | items (items : Array α)
  | settings (settings : ListSettings ι)
  | listener (listener : Option ι)
  | scrollTo (index : Nat) (alignment : Alignment)

/-- The answer to an update. -/
inductive Reply where
  | done
  | refused (error : SettingError)
  | scrolledTo (offset : Float)

/-- A sequence of updates and of batches of them. -/
inductive Script (ι α : Type) where
  | nil
  | update (u : Update ι α) (rest : Script ι α)
  | batch (body rest : Script ι α)

namespace WindowedList

variable {ι α : Type}

def apply (l : WindowedList ι α) : Update ι α → ListStep ι α Reply
  | .viewport scrollOffset extent => (l.setViewport scrollOffset extent).map fun _ => .done
  | .scrollOffset offset => (l.setScrollOffset offset).map fun _ => .done
  | .viewportExtent extent => (l.setViewportExtent extent).map fun _ => .done
  | .restore snapshot => (l.restore snapshot).map fun _ => .done
  | .overscan count => (l.setOverscan count).map fun _ => .done
  | .items items => (l.setItems items).map fun _ => .done
  | .settings settings =>
    (l.setSettings settings).map fun
      | .ok () => .done
      | .error e => .refused e
  | .listener listener => .quiet (l.setListener listener) .done
  | .scrollTo index alignment => (l.scrollToIndex index alignment).map .scrolledTo

/-- Runs a script; the answers to its updates are dropped. -/
def perform : Script ι α → WindowedList ι α → ListStep ι α Unit
  | .nil, l => .quiet l ()
  | .update u rest, l => (l.apply u).andThen fun l _ => perform rest l
  | .batch body rest, l => (l.batch (perform body)).andThen fun l _ => perform rest l

end WindowedList

/-- The updates of a script in order, without its batches. -/
def Script.updates {ι α : Type} : Script ι α → List (Update ι α)
  | .nil => []
  | .update u rest => u :: rest.updates
  | .batch body rest => body.updates ++ rest.updates

end Windowing
