import Windowing.Count
import Windowing.Step
import Windowing.Text.Record

/-!
# Throttles

A throttle lets a value pass and then none until an interval has gone by. Values in
between are dropped, not kept for later.
-/

namespace Windowing

structure Throttle (ι β : Type) where
  /-- Least time between two values that pass, in milliseconds: about one frame. -/
  interval : Nat := 16
  /-- When the last value passed, unless that was forgotten since. -/
  lastTime : Option Nat := none
  /-- The last value that passed. -/
  lastValue : Option β := none
  /-- Told of each value that passes. -/
  listener : Option ι := none
  disposed : Bool := false

namespace Throttle

variable {ι β : Type}

/-- Whether a value would pass at this time. A time before that of the last value counts
as no time gone by. -/
def isOpen (t : Throttle ι β) (now : Nat) : Bool :=
  !t.disposed && t.lastTime.all fun last => t.interval ≤ now - last

/-- Lets a value pass if it may, and answers with it. -/
def emit (t : Throttle ι β) (value : β) (now : Nat) :
    Step (Throttle ι β) (Call ι β) (Option β) :=
  if t.isOpen now then
    ⟨{ t with lastTime := some now, lastValue := some value },
      Call.deliver t.listener value, some value⟩
  else
    .quiet t none

/-- Forgets when the last value passed, so that the next one may. -/
def reset (t : Throttle ι β) : Throttle ι β := { t with lastTime := none }

/-- Ends the throttle: nothing passes from now on. -/
def dispose (t : Throttle ι β) : Throttle ι β := { t with disposed := true, lastTime := none }

/-! ## Requests -/

/-- What a throttle is asked to do. -/
inductive Request (β : Type) where
  | emit (value : β) (now : Nat)
  | reset
  | dispose

/-- Handles a request and answers with the value that passed, if one did. -/
def apply (t : Throttle ι β) : Request β → Step (Throttle ι β) (Call ι β) (Option β)
  | .emit value now => t.emit value now
  | .reset => .quiet t.reset none
  | .dispose => .quiet t.dispose none

def describe (describeValue : β → String) (t : Throttle ι β) : String :=
  Text.record "Throttle"
    [("interval_ms", toString t.interval),
      ("last_forward_ms", Text.option (t.lastTime.map toString)),
      ("last_forwarded", Text.option (t.lastValue.map describeValue)),
      ("disposed", Text.flag t.disposed)]
    true

end Throttle

end Windowing
