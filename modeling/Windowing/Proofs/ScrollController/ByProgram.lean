import Windowing.Proofs.ScrollController.Disposal
import Windowing.Proofs.ScrollController.Settling
import Windowing.Proofs.WindowedList.Track

/-!
# Scrolling by program during a gesture

Two things of a gesture outlive it when it is given up: the debouncer still has its last offset,
and the throttle the time at which one passed. Neither takes the list away from where it was
scrolled to by program. Without a deadline the offset that is left does not settle, so until the
next one comes in, ticks do nothing and sizes only change the size (`run_of_rest`). And the next
one starts the debouncer anew, even if the throttle drops it; from then on it is waiting, whatever
else happens meanwhile (`Waits`, kept by `Waits.apply` and `Waits.run`), until a tick comes that
is late enough (`Waits.tick`).
-/

namespace Windowing

open Binary

/-- Neither brings another offset nor is late enough for one that is due. -/
def HostEvent.Spares (due : Nat) : HostEvent → Prop
  | .scroll .. => False
  | .resize _ => True
  | .tick now => now < due

namespace ScrollController

variable {ι α : Type} {c : ScrollController ι α} {settings : ControllerSettings}
  {e : HostEvent} {es : List HostEvent} {x y : Float} {due now : Nat}

/-- Whatever is asked, except for scrolling by program and for the end of the controller, as long
as all events are spared by. -/
def Request.Spares (due : Nat) : Request ι α → Prop
  | .deliver event | .enqueue event => event.Spares due
  | .drain | .update _ => True
  | .scrollTo .. | .dispose => False

/-! ## Controllers with a history -/

/-- Controllers that any requests lead to. Their owner may do with the list what they like. -/
inductive Reachable : ScrollController ι α → Prop where
  | fresh {settings : ControllerSettings} {c : ScrollController ι α} :
      Fresh settings c → Reachable c
  | apply {c : ScrollController ι α} : Reachable c → (r : Request ι α) →
      Reachable (c.apply r).state
  | withNewList {c : ScrollController ι α} {l : WindowedList ι α} :
      Reachable c → l.Reachable → Reachable (c.withNewList l)

theorem notify_disposed (c : ScrollController ι α) (x : Float) (now : Nat) :
    (c.scrollEnd.notify x now).disposed = c.scrollEnd.disposed := by
  unfold Debouncer.notify
  split <;> rfl

/-- Throttle and debouncer are disposed of together. -/
theorem deliver_disposed (h : c.scrollEnd.disposed = c.isDisposed) (e : HostEvent) :
    (c.deliver e).state.scrollEnd.disposed = (c.deliver e).state.isDisposed := by
  rw [deliver_isDisposed, ← h]
  cases e with
  | scroll x now =>
      cases hlive : c.isDisposed with
      | true => rw [deliver, onScroll_of_disposed hlive]; rfl
      | false =>
          rw [deliver, (onScroll_of_live hlive x now).1]
          exact notify_disposed c x now
  | resize extent =>
      cases hlive : c.isDisposed with
      | true => rw [deliver, onResize_of_disposed hlive]; rfl
      | false => rw [deliver, onResize_of_live hlive]; rfl
  | tick now =>
      rw [deliver]
      cases hpoll : (c.scrollEnd.poll now).result with
      | none => rw [tick_of_none hpoll]; exact (c.scrollEnd.poll_kept now).2.1
      | some x => rw [tick_of_some hpoll]; rfl

theorem run_deliver_disposed (h : c.scrollEnd.disposed = c.isDisposed) (es : List HostEvent) :
    (Step.run deliver c es).state.scrollEnd.disposed
      = (Step.run deliver c es).state.isDisposed := by
  induction es generalizing c with
  | nil => exact h
  | cons e es ih => exact ih (deliver_disposed h e)

theorem drain_state (c : ScrollController ι α) :
    c.drain.state = (Step.run deliver c c.queue).state.withQueue [] := by
  show (c.withQueue c.queue).drain.state = _
  rw [drain_eq]
  rfl

theorem Reachable.disposed_eq (h : Reachable c) : c.scrollEnd.disposed = c.isDisposed := by
  induction h with
  | fresh hc => rw [hc.follows.live, hc.follows.live_end]
  | withNewList _ _ ih => exact ih
  | @apply c _ r ih =>
      cases r with
      | deliver e => exact deliver_disposed ih e
      | enqueue e =>
          show (c.enqueue e).scrollEnd.disposed = (c.enqueue e).isDisposed
          unfold enqueue
          split <;> exact ih
      | drain =>
          show c.drain.state.scrollEnd.disposed = c.drain.state.isDisposed
          rw [drain_state]
          exact run_deliver_disposed ih c.queue
      | scrollTo index a =>
          show (c.scrollToIndex index a).state.scrollEnd.disposed
            = (c.scrollToIndex index a).state.isDisposed
          cases hlive : c.isDisposed with
          | true => rw [scrollToIndex_of_disposed hlive]; exact ih
          | false => rw [scrollToIndex_of_live hlive]; exact ih
      | update u => exact ih
      | dispose => rfl

/-! ## At rest -/

/-- At rest no event but a scroll offset does anything, except to the list, and not to its
offset either. -/
theorem deliver_of_rest (hlive : c.isDisposed = false) (hrest : c.isScrolling = false)
    (hoffset : Extent.IsClamped c.list.viewport.scrollOffset) (he : ∀ x t, e ≠ .scroll x t) :
    ∃ l, (c.deliver e).state = c.withNewList l ∧ (c.deliver e).result = false
      ∧ l.viewport.scrollOffset = c.list.viewport.scrollOffset := by
  cases e with
  | scroll x t => exact absurd rfl (he x t)
  | resize extent =>
      rw [deliver, onResize_of_live hlive]
      exact ⟨_, rfl, rfl, WindowedList.setViewportExtent_scrollOffset hoffset extent⟩
  | tick now =>
      rw [deliver, tick_of_rest hrest]
      exact ⟨_, rfl, rfl, rfl⟩

theorem run_of_rest (hlive : c.isDisposed = false) (hrest : c.isScrolling = false)
    (hoffset : Extent.IsClamped c.list.viewport.scrollOffset) (hes : ∀ x t, .scroll x t ∉ es) :
    ∃ l, c.after es = c.withNewList l
      ∧ (Step.run deliver c es).result = List.replicate es.length false
      ∧ l.viewport.scrollOffset = c.list.viewport.scrollOffset := by
  induction es generalizing c with
  | nil => exact ⟨c.list, rfl, rfl, rfl⟩
  | cons e es ih =>
      obtain ⟨l, hstate, hresult, hl⟩ := deliver_of_rest hlive hrest hoffset
        fun x t heq => hes x t (heq ▸ List.mem_cons_self ..)
      obtain ⟨l', hstate', hresult', hl'⟩ := ih (c := c.withNewList l) hlive hrest
        (hl ▸ hoffset) fun x t hmem => hes x t (List.mem_cons_of_mem _ hmem)
      have hfirst : c.after (e :: es) = (c.withNewList l).after es := congrArg (·.after es) hstate
      refine ⟨l', hfirst.trans hstate', ?_, hl'.trans hl⟩
      show (c.deliver e).result :: (Step.run deliver (c.deliver e).state es).result = _
      rw [hresult, hstate, hresult']
      rfl

/-! ## An offset that waits -/

/-- The offset `y` waits to be applied, and no event in the queue will be in its way. -/
structure Waits (y : Float) (due : Nat) (c : ScrollController ι α) : Prop where
  live_end : c.scrollEnd.disposed = false
  waiting : c.scrollEnd.waiting = some (y, due)
  queue : ∀ e ∈ c.queue, e.Spares due

namespace Waits

theorem deliver (h : Waits y due c) (he : e.Spares due) :
    Waits y due (c.deliver e).state := by
  cases e with
  | scroll x t => exact he.elim
  | resize extent =>
      rw [ScrollController.deliver]
      cases hlive : c.isDisposed with
      | true => rw [onResize_of_disposed hlive]; exact h
      | false => rw [onResize_of_live hlive]; exact ⟨h.live_end, h.waiting, h.queue⟩
  | tick now =>
      rw [ScrollController.deliver, tick_of_waiting h.live_end h.waiting,
        if_neg (Nat.not_le.mpr he)]
      exact h

theorem run_deliver (h : Waits y due c) (hes : ∀ e ∈ es, e.Spares due) :
    Waits y due (Step.run ScrollController.deliver c es).state := by
  induction es generalizing c with
  | nil => exact h
  | cons e es ih =>
      obtain ⟨he, hes'⟩ := List.forall_mem_cons.mp hes
      exact ih (h.deliver he) hes'

theorem apply (h : Waits y due c) {r : Request ι α} (hr : r.Spares due) :
    Waits y due (c.apply r).state := by
  cases r with
  | deliver e => exact h.deliver hr
  | enqueue e =>
      show Waits y due (c.enqueue e)
      unfold enqueue
      split
      · exact h
      · refine ⟨h.live_end, h.waiting, List.forall_mem_append.mpr ⟨h.queue, ?_⟩⟩
        exact List.forall_mem_singleton.mpr hr
  | drain =>
      show Waits y due c.drain.state
      have hrun := h.run_deliver h.queue
      rw [drain_state]
      exact ⟨hrun.live_end, hrun.waiting, by simp [withQueue]⟩
  | update u => exact ⟨h.live_end, h.waiting, h.queue⟩
  | scrollTo index a => exact hr.elim
  | dispose => exact hr.elim

theorem run (h : Waits y due c) {rs : List (Request ι α)} (hrs : ∀ r ∈ rs, r.Spares due) :
    Waits y due (Step.run ScrollController.apply c rs).state := by
  induction rs generalizing c with
  | nil => exact h
  | cons r rs ih =>
      obtain ⟨hr, hrs'⟩ := List.forall_mem_cons.mp hrs
      exact ih (h.apply hr) hrs'

theorem tick (h : Waits y due c) (hnow : due ≤ now) :
    c.tick now = ⟨c.settled y, (c.list.setScrollOffset y).events, true⟩ := by
  rw [tick_of_waiting h.live_end h.waiting, if_pos hnow]

theorem isScrolling (h : Waits y due c) : c.isScrolling = true := by
  rw [ScrollController.isScrolling, Debouncer.isPending_of_waiting h.waiting]

/-- An offset that comes in waits, whether or not the throttle lets it pass. -/
theorem onScroll (hlive : c.isDisposed = false) (hlive_end : c.scrollEnd.disposed = false)
    (hq : c.queue = []) (y : Float) (now : Nat) :
    Waits y (Count.add now c.scrollEnd.delay) (c.onScroll y now).state := by
  have hend := (onScroll_of_live hlive y now).1
  have hqueue : (c.onScroll y now).state.queue = [] := (deliver_queue c (.scroll y now)).trans hq
  rw [Debouncer.notify_of_live hlive_end] at hend
  refine ⟨?_, ?_, ?_⟩
  · rw [hend]
    exact hlive_end
  · rw [hend]
    rfl
  · rw [hqueue]
    simp

end Waits

/-! ## Every controller -/

/-- That a controller which was scrolled to `x` by program stays there until the next gesture, and
that it follows that one. -/
structure Prevails (c : ScrollController ι α) (x : Float) : Prop where
  /-- Whatever ticks and sizes come in, however late: no tick ends a gesture. -/
  stays : ∀ es, (∀ y t, .scroll y t ∉ es) →
    ((c.after es).list.viewport.scrollOffset == x) = true
      ∧ (c.after es).isScrolling = false
      ∧ (Step.run deliver c es).result = List.replicate es.length false
  /-- After them an offset comes in, which the throttle may drop. Unless another one follows, or
  the list is scrolled by program again, the first tick that is late enough applies it. -/
  follows : ∀ es, (∀ y t, .scroll y t ∉ es) → ∀ y t,
    ((c.after es).onScroll y t).result = c.scroll.isOpen t
      ∧ ((c.after es).onScroll y t).state.isScrolling = true
      ∧ ∃ due, ((c.after es).onScroll y t).state.deadline = some due
        ∧ ∀ rs : List (Request ι α), (∀ r ∈ rs, r.Spares due) → ∀ now, due ≤ now →
          let last := (Step.run apply ((c.after es).onScroll y t).state rs).state.tick now
          last.result = true
            ∧ (last.state.list.viewport.scrollOffset == Extent.clamp y) = true
            ∧ last.state.isScrolling = false

theorem onScroll_result (hlive : c.isDisposed = false) (x : Float) (now : Nat) :
    (c.onScroll x now).result = c.scroll.isOpen now := by
  cases hopen : c.scroll.isOpen now with
  | true => rw [onScroll_of_open hopen]
  | false =>
      rw [onScroll_of_shut hlive hopen]
      rfl

theorem prevails_of_rest (hlive : c.isDisposed = false) (hlive_end : c.scrollEnd.disposed = false)
    (hq : c.queue = []) (hrest : c.isScrolling = false) (hx : Extent.IsClamped x)
    (hoffset : (c.list.viewport.scrollOffset == x) = true) : c.Prevails x := by
  have hclamped := Extent.isClamped_of_beq hoffset hx
  constructor
  · intro es hes
    obtain ⟨l, hafter, hresult, hl⟩ := run_of_rest hlive hrest hclamped hes
    rw [hafter]
    refine ⟨?_, hrest, hresult⟩
    rw [← hl] at hoffset
    exact hoffset
  · intro es hes y t
    obtain ⟨l, hafter, -, -⟩ := run_of_rest hlive hrest hclamped hes
    rw [hafter]
    have hwaits : Waits y _ ((c.withNewList l).onScroll y t).state :=
      Waits.onScroll (c := c.withNewList l) hlive hlive_end hq y t
    refine ⟨onScroll_result (c := c.withNewList l) hlive y t, hwaits.isScrolling, _,
      (Debouncer.waiting_eq_some.mp hwaits.waiting).2, fun rs hrs now hnow => ?_⟩
    rw [(hwaits.run hrs).tick hnow]
    exact ⟨rfl, WindowedList.setScrollOffset_scrollOffset _ y, rfl⟩

/-- Whatever a controller has been through, as long as it was not disposed of: when it is scrolled
by program, the gesture that was going on has no more say, and the next one has. -/
theorem scrolling_by_program_prevails (h : Reachable c) (hlive : c.isDisposed = false)
    (hq : c.queue = []) (index : ℕ) (a : Alignment) :
    (c.scrollToIndex index a).state.scroll = c.scroll
      ∧ (c.scrollToIndex index a).state.Prevails (c.scrollToIndex index a).result := by
  have hlive_end : c.scrollEnd.disposed = false := h.disposed_eq.trans hlive
  rw [scrollToIndex_of_live hlive]
  have htarget := c.list.isClamped_scrollTarget index a
  have hoffset := c.list.setScrollOffset_scrollOffset (c.list.scrollTarget index a)
  rw [htarget.clamp_eq] at hoffset
  exact ⟨rfl, prevails_of_rest hlive hlive_end hq rfl htarget hoffset⟩

/-- In the middle of a gesture, of which the last offset was dropped and waits. The throttle goes on
to drop what comes too early. -/
theorem scrolling_by_program_prevails_gesture :
    ∃ l c : ScrollController Nat Nat,
      create #[0, 1, 2] { itemExtent := 60.0, viewportExtent := 90.0 } {} = .ok l
        ∧ c = ((l.onScroll 60.0 7).state.onScroll 90.0 8).state
        ∧ c.isScrolling = true ∧ Reachable c ∧ c.isDisposed = false ∧ c.queue = []
        ∧ (c.scrollToIndex 1 .leading).result = 60.0
        ∧ (c.scrollToIndex 1 .leading).state.scroll.isOpen 10 = false
        ∧ (c.scrollToIndex 1 .leading).state.Prevails (c.scrollToIndex 1 .leading).result := by
  have h : create #[0, 1, 2] { itemExtent := 60.0, viewportExtent := 90.0 } {}
      = .ok (_ : ScrollController Nat Nat) := rfl
  have hc := ((Reachable.fresh (.create h)).apply (.deliver (.scroll 60.0 7))).apply
    (.deliver (.scroll 90.0 8))
  exact ⟨_, _, h, rfl, rfl, hc, rfl, rfl, by decide +kernel, by decide +kernel,
    (scrolling_by_program_prevails hc rfl rfl 1 .leading).2⟩

end ScrollController

end Windowing
