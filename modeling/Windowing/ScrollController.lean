import Windowing.Timing.Debouncer
import Windowing.Timing.Throttle
import Windowing.WindowedList.Update

/-!
# Scroll controllers

A controller stands between a host and a windowed list. Scroll offsets may come more
often than the list should be moved, so they pass a throttle; the last one also waits in
a debouncer and is applied when the gesture is over, so that the list always ends up
where the host is. Events can be delivered at once or be queued and applied later, in
the order in which they came.
-/

namespace Windowing

/-- What a host reports. -/
inductive HostEvent where
  | scroll (offset : Float) (now : Nat)
  | resize (extent : Float)
  | tick (now : Nat)

structure ControllerSettings where
  /-- Least time between two scroll offsets that are applied. -/
  scrollInterval : Nat := 16
  /-- How long it has to be quiet before a gesture is over. -/
  scrollEndDelay : Nat := 150

/-- Throttle and debouncer have no listeners of their own here. -/
structure ScrollController (ι α : Type) where
  list : WindowedList ι α
  scroll : Throttle Empty Float
  scrollEnd : Debouncer Empty Float
  queue : List HostEvent

/-- An operation on a controller, with what the listener of its list was told. -/
abbrev ControllerStep (ι α ρ : Type) : Type :=
  Step (ScrollController ι α) (ChangeNotice ι α) ρ

namespace ScrollController

variable {ι α ρ : Type}

def ofList (list : WindowedList ι α) (settings : ControllerSettings) :
    ScrollController ι α where
  list
  scroll := { interval := settings.scrollInterval }
  scrollEnd := { delay := settings.scrollEndDelay }
  queue := []

def create (items : Array α) (listSettings : ListSettings ι) (settings : ControllerSettings) :
    Except SettingError (ScrollController ι α) :=
  (WindowedList.create items listSettings).map (ofList · settings)

/-- Whether a gesture is going on: its last offset has not settled. -/
def isScrolling (c : ScrollController ι α) : Bool := c.scrollEnd.isPending

/-- When to tick next. -/
def deadline (c : ScrollController ι α) : Option Nat := c.scrollEnd.deadline

def isDisposed (c : ScrollController ι α) : Bool := c.scroll.disposed

/-- Does something with the list itself, past throttle and debouncer. -/
def withList (c : ScrollController ι α)
    (act : WindowedList ι α → ListStep ι α ρ) : ControllerStep ι α ρ :=
  (act c.list).within fun list => { c with list }

/-! ## Events -/

/-- Takes in a scroll offset. Answers whether it was applied at once. -/
def onScroll (c : ScrollController ι α) (offset : Float) (now : Nat) :
    ControllerStep ι α Bool :=
  if c.isDisposed then
    .quiet c false
  else
    let passed := c.scroll.emit offset now
    let c := { c with scroll := passed.state, scrollEnd := c.scrollEnd.notify offset now }
    match passed.result with
    | none => .quiet c false
    | some offset => (c.withList (·.setScrollOffset offset)).map fun _ => true

/-- Takes in the size of the viewport. -/
def onResize (c : ScrollController ι α) (extent : Float) : ControllerStep ι α Unit :=
  if c.isDisposed then .quiet c () else c.withList (·.setViewportExtent extent)

/-- Takes in the time. Answers whether a gesture is over by it; its last offset is then
applied and the next gesture may start at once. -/
def tick (c : ScrollController ι α) (now : Nat) : ControllerStep ι α Bool :=
  let settled := c.scrollEnd.poll now
  let c := { c with scrollEnd := settled.state }
  match settled.result with
  | none => .quiet c false
  | some offset =>
    ({ c with scroll := c.scroll.reset }.withList (·.setScrollOffset offset)).map fun _ => true

/-- Takes in an event. Answers whether it scrolled the list. -/
def deliver (c : ScrollController ι α) : HostEvent → ControllerStep ι α Bool
  | .scroll offset now => c.onScroll offset now
  | .resize extent => (c.onResize extent).map fun _ => false
  | .tick now => c.tick now

theorem deliver_queue (c : ScrollController ι α) (event : HostEvent) :
    (c.deliver event).state.queue = c.queue := by
  cases event with
  | scroll offset now =>
      simp only [deliver, onScroll]
      split
      · rfl
      · split <;> rfl
  | resize extent =>
      simp only [deliver, onResize]
      split <;> rfl
  | tick now =>
      simp only [deliver, tick]
      split <;> rfl

/-! ## Scrolling by program -/

/-- Scrolls to an item and answers with the offset scrolled to. A gesture that is going
on is given up. -/
def scrollToIndex (c : ScrollController ι α) (index : Nat) (alignment : Alignment) :
    ControllerStep ι α Float :=
  if c.isDisposed then
    .quiet c c.list.viewport.scrollOffset
  else
    { c with scrollEnd := c.scrollEnd.cancel }.withList (·.scrollToIndex index alignment)

/-! ## The queue -/

def enqueue (c : ScrollController ι α) (event : HostEvent) : ScrollController ι α :=
  if c.isDisposed then c else { c with queue := c.queue ++ [event] }

/-- Takes the queued events off the queue, one after the other from its front, and delivers
each of them. Answers how many there were. -/
def drain (c : ScrollController ι α) : ControllerStep ι α Nat :=
  match h : c.queue with
  | [] => .quiet c 0
  | event :: rest =>
    let delivered := { c with queue := rest }.deliver event
    let drained := delivered.state.drain
    ⟨drained.state, delivered.events ++ drained.events, drained.result + 1⟩
termination_by c.queue.length
decreasing_by
  rw [deliver_queue, h]
  exact Nat.lt_succ_self _

/-- Ends the controller: timers and queued events are dropped, and nothing is taken in
from now on. The list stays as it is. -/
def dispose (c : ScrollController ι α) : ScrollController ι α :=
  { c with scroll := c.scroll.dispose, scrollEnd := c.scrollEnd.dispose, queue := [] }

/-! ## Requests -/

/-- What a controller is asked to do. -/
inductive Request (ι α : Type) where
  | deliver (event : HostEvent)
  | enqueue (event : HostEvent)
  | drain
  | scrollTo (index : Nat) (alignment : Alignment)
  /-- Changes the list itself. -/
  | update (u : Update ι α)
  | dispose

/-- The answer to a request. -/
inductive Answer where
  | done
  /-- Whether the event scrolled the list. -/
  | delivered (scrolled : Bool)
  | drained (count : Nat)
  | scrolledTo (offset : Float)
  | updated (reply : Reply)

def apply (c : ScrollController ι α) : Request ι α → ControllerStep ι α Answer
  | .deliver event => (c.deliver event).map .delivered
  | .enqueue event => .quiet (c.enqueue event) .done
  | .drain => c.drain.map .drained
  | .scrollTo index alignment => (c.scrollToIndex index alignment).map .scrolledTo
  | .update u => (c.withList (·.apply u)).map .updated
  | .dispose => .quiet c.dispose .done

end ScrollController

end Windowing
