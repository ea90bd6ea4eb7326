import Windowing.Count
import Windowing.Step
import Windowing.Text.Record

/-!
# Debouncers

A debouncer turns a burst of values into one: the latest, once there has been no other
for a while. It has no timer of its own. Each value comes with the time, and the owner
asks at a later time whether the value has settled. Values that come from elsewhere and
need no settling are taken in by `sync`.
-/

namespace Windowing

structure Debouncer (ι β : Type) where
  /-- How long it has to be quiet, in milliseconds. -/
  delay : Nat := 300
  /-- The most recent value, settled or not. -/
  latest : Option β := none
  /-- When the value that waits will settle. -/
  deadline : Option Nat := none
  /-- Told of each value that settles. -/
  listener : Option ι := none
  disposed : Bool := false

namespace Debouncer

variable {ι β : Type}

def isPending (d : Debouncer ι β) : Bool := d.deadline.isSome

/-- Takes in a value. The one that was waiting will not settle any more. -/
def notify (d : Debouncer ι β) (value : β) (now : Nat) : Debouncer ι β :=
  if d.disposed then
    d
  else
    { d with latest := some value, deadline := some (Count.add now d.delay) }

/-- Takes in a value that needs no settling. -/
def sync (d : Debouncer ι β) (value : β) : Debouncer ι β :=
  if d.disposed then d else { d with latest := some value, deadline := none }

/-- The value stays the latest, but will not settle. -/
def cancel (d : Debouncer ι β) : Debouncer ι β := { d with deadline := none }

/-- Ends the debouncer: nothing settles and nothing is taken in from now on. -/
def dispose (d : Debouncer ι β) : Debouncer ι β := { d with disposed := true, deadline := none }

/-- Lets the latest value settle, if there is one. It stays the latest. -/
def settle (d : Debouncer ι β) : Step (Debouncer ι β) (Call ι β) (Option β) :=
  let d := { d with deadline := none }
  match d.latest with
  | none => .quiet d none
  | some value => ⟨d, Call.deliver d.listener value, some value⟩

/-- Lets the waiting value settle if it has been quiet for long enough. -/
def poll (d : Debouncer ι β) (now : Nat) : Step (Debouncer ι β) (Call ι β) (Option β) :=
  if d.disposed then
    .quiet d none
  else
    match d.deadline with
    | none => .quiet d none
    | some due => if now < due then .quiet d none else d.settle

/-- Lets the waiting value settle at once. -/
def flush (d : Debouncer ι β) : Step (Debouncer ι β) (Call ι β) (Option β) :=
  if d.disposed || d.deadline.isNone then .quiet d none else d.settle

/-! ## Requests -/

/-- What a debouncer is asked to do. -/
inductive Request (β : Type) where
  | notify (value : β) (now : Nat)
  | poll (now : Nat)
  | flush
  | sync (value : β)
  | cancel
  | dispose

/-- Handles a request and answers with the value that settled, if one did. -/
def apply (d : Debouncer ι β) : Request β → Step (Debouncer ι β) (Call ι β) (Option β)
  | .notify value now => .quiet (d.notify value now) none
  | .poll now => d.poll now
  | .flush => d.flush
  | .sync value => .quiet (d.sync value) none
  | .cancel => .quiet d.cancel none
  | .dispose => .quiet d.dispose none

def describe (describeValue : β → String) (d : Debouncer ι β) : String :=
  Text.record "Debouncer"
    [("delay_ms", toString d.delay), ("latest", Text.option (d.latest.map describeValue)),
      ("deadline", Text.option (d.deadline.map toString)), ("disposed", Text.flag d.disposed)]
    true

end Debouncer

end Windowing
