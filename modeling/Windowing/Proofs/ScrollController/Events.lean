import Windowing.Proofs.Timing.Debouncer
import Windowing.Proofs.Timing.Rate
import Windowing.ScrollController

/-!
# What a controller does with an event

A scroll offset restarts the debouncer, and the throttle decides whether the list is moved at
once. A tick does nothing until the debouncer lets the last offset settle. One equation for
each way that an event can go.
-/

namespace Windowing

namespace ScrollController

variable {ι α : Type} {c : ScrollController ι α} {now : Nat} {x : Float}

/-! ## Scroll offsets -/

theorem onScroll_of_disposed (h : c.isDisposed = true) (x : Float) (now : Nat) :
    c.onScroll x now = .quiet c false := if_pos h

theorem onScroll_of_open (h : c.scroll.isOpen now = true) (x : Float) :
    c.onScroll x now =
      ⟨{ c with
          list := (c.list.setScrollOffset x).state
          scroll := { c.scroll with lastTime := some now, lastValue := some x }
          scrollEnd := c.scrollEnd.notify x now },
        (c.list.setScrollOffset x).events, true⟩ := by
  unfold onScroll
  rw [isDisposed, Throttle.live_of_isOpen h, if_neg Bool.false_ne_true, Throttle.emit_of_open h]
  rfl

theorem onScroll_of_shut (hlive : c.isDisposed = false) (h : c.scroll.isOpen now = false)
    (x : Float) :
    c.onScroll x now = .quiet { c with scrollEnd := c.scrollEnd.notify x now } false := by
  unfold onScroll
  rw [hlive, if_neg Bool.false_ne_true, Throttle.emit_of_shut h]
  rfl

/-- The throttle decides only whether the list is moved at once. -/
theorem onScroll_of_live (h : c.isDisposed = false) (x : Float) (now : Nat) :
    (c.onScroll x now).state.scrollEnd = c.scrollEnd.notify x now
      ∧ (c.onScroll x now).state.isDisposed = false
      ∧ ((c.onScroll x now).state.list = c.list
        ∨ (c.onScroll x now).state.list = (c.list.setScrollOffset x).state) := by
  cases hopen : c.scroll.isOpen now with
  | true =>
      rw [onScroll_of_open hopen]
      exact ⟨rfl, h, Or.inr rfl⟩
  | false =>
      rw [onScroll_of_shut h hopen]
      exact ⟨rfl, h, Or.inl rfl⟩

/-! ## Sizes -/

theorem onResize_of_disposed (h : c.isDisposed = true) (e : Float) :
    c.onResize e = .quiet c () := if_pos h

theorem onResize_of_live (h : c.isDisposed = false) (e : Float) :
    c.onResize e = c.withList (·.setViewportExtent e) :=
  if_neg (by rw [h]; exact Bool.false_ne_true)

/-! ## Scrolling by program -/

theorem scrollToIndex_of_disposed (h : c.isDisposed = true) (index : Nat) (a : Alignment) :
    c.scrollToIndex index a = .quiet c c.list.viewport.scrollOffset := if_pos h

theorem scrollToIndex_of_live (h : c.isDisposed = false) (index : Nat) (a : Alignment) :
    c.scrollToIndex index a =
      { c with scrollEnd := c.scrollEnd.cancel }.withList (·.scrollToIndex index a) :=
  if_neg (by rw [h]; exact Bool.false_ne_true)

/-! ## Ticks -/

/-- The controller after a gesture is over: its last offset is applied, and the next
gesture may start at once. -/
def settled (c : ScrollController ι α) (x : Float) : ScrollController ι α :=
  { c with
    list := (c.list.setScrollOffset x).state
    scroll := c.scroll.reset
    scrollEnd := c.scrollEnd.cancel }

theorem tick_of_none (h : (c.scrollEnd.poll now).result = none) :
    c.tick now = .quiet { c with scrollEnd := (c.scrollEnd.poll now).state } false := by
  rw [tick, h]

theorem tick_of_some (h : (c.scrollEnd.poll now).result = some x) :
    c.tick now = ⟨c.settled x, (c.list.setScrollOffset x).events, true⟩ := by
  rw [tick, h, Debouncer.poll_state_of_some h]
  rfl

theorem tick_of_rest (h : c.isScrolling = false) (now : Nat) :
    c.tick now = .quiet c false := by
  have hpoll : c.scrollEnd.poll now = .quiet c.scrollEnd none := by
    rw [Debouncer.poll_eq, Debouncer.settleIf_of_rest h]
  rw [tick_of_none (by rw [hpoll]; rfl), hpoll]
  rfl

theorem tick_of_waiting {due : Nat} (hd : c.scrollEnd.disposed = false)
    (hw : c.scrollEnd.waiting = some (x, due)) (now : Nat) :
    c.tick now =
      if due ≤ now then ⟨c.settled x, (c.list.setScrollOffset x).events, true⟩
      else .quiet c false := by
  rw [tick, Debouncer.poll_eq, Debouncer.settleIf_of_waiting hd hw]
  by_cases h : due ≤ now
  · rw [if_pos h, if_pos (decide_eq_true h)]
    rfl
  · rw [if_neg h, if_neg (by rwa [decide_eq_true_iff])]
    rfl

end ScrollController

end Windowing
