import Windowing.Proofs.ScrollController.Events

/-!
# Queued and direct delivery

What a controller does with an event does not depend on what is queued, and leaves the queue
alone (`deliver_withQueue`; for all direct requests `apply_withQueue`). So draining is a run
over the queue (`drain_eq`), and a controller whose events are queued and drained in chunks is
one that takes each event at once. Direct requests between them come first: they act while the
queued events still wait, in the order in which they came (`run_round`).
`queued_acts_like_direct` puts this together.
-/

namespace Windowing

namespace ScrollController

variable {ι α ρ : Type} {c : ScrollController ι α}

/-- The controller with another queue. -/
def withQueue (q : List HostEvent) (c : ScrollController ι α) : ScrollController ι α :=
  { c with queue := q }

/-- A request that acts at once, past the queue. -/
def Request.isDirect : Request ι α → Bool
  | .deliver _ | .scrollTo .. | .update _ => true
  | _ => false

/-- The event that a request puts into the queue. -/
def Request.queued? : Request ι α → Option HostEvent
  | .enqueue event => some event
  | _ => none

/-- Takes in an event at once, as a host does that has no use for the queue. -/
def handle (c : ScrollController ι α) : HostEvent → ControllerStep ι α Bool
  | .scroll offset now => c.onScroll offset now
  | .resize extent => (c.onResize extent).map fun _ => false
  | .tick now => c.tick now

/-- Queues a chunk of events in order, then drains. -/
def deliverQueued (c : ScrollController ι α) (chunk : List HostEvent) : ControllerStep ι α Nat :=
  (chunk.foldl enqueue c).drain

/-! ## The queue is left alone -/

@[simp] theorem withQueue_self (c : ScrollController ι α) : c.withQueue c.queue = c := rfl

@[simp] theorem withQueue_withQueue (q q' : List HostEvent) (c : ScrollController ι α) :
    (c.withQueue q).withQueue q' = c.withQueue q' := rfl

theorem deliver_withQueue (q : List HostEvent) (c : ScrollController ι α) (event : HostEvent) :
    (c.withQueue q).deliver event = (c.deliver event).within (withQueue q) := by
  cases event with
  | scroll offset now =>
      show (c.withQueue q).onScroll offset now = (c.onScroll offset now).within (withQueue q)
      cases hlive : c.isDisposed with
      | true =>
          rw [onScroll_of_disposed hlive, onScroll_of_disposed (c := c.withQueue q) hlive]
          rfl
      | false =>
          cases hopen : c.scroll.isOpen now with
          | true =>
              rw [onScroll_of_open hopen, onScroll_of_open (c := c.withQueue q) hopen]
              rfl
          | false =>
              rw [onScroll_of_shut hlive hopen, onScroll_of_shut (c := c.withQueue q) hlive hopen]
              rfl
  | resize extent =>
      rw [deliver, deliver]
      cases hlive : c.isDisposed with
      | true =>
          rw [onResize_of_disposed hlive, onResize_of_disposed (c := c.withQueue q) hlive]
          rfl
      | false =>
          rw [onResize_of_live hlive, onResize_of_live (c := c.withQueue q) hlive]
          rfl
  | tick now =>
      show (c.withQueue q).tick now = (c.tick now).within (withQueue q)
      cases hpoll : (c.scrollEnd.poll now).result with
      | none =>
          rw [tick_of_none hpoll, tick_of_none (c := c.withQueue q) hpoll]
          rfl
      | some x =>
          rw [tick_of_some hpoll, tick_of_some (c := c.withQueue q) hpoll]
          rfl

theorem apply_withQueue {r : Request ι α} (hr : r.isDirect = true) (q : List HostEvent)
    (c : ScrollController ι α) :
    (c.withQueue q).apply r = (c.apply r).within (withQueue q) := by
  cases r with
  | deliver event =>
      rw [apply, apply, deliver_withQueue]
      rfl
  | scrollTo index alignment =>
      rw [apply, apply]
      cases hlive : c.isDisposed with
      | true =>
          rw [scrollToIndex_of_disposed hlive, scrollToIndex_of_disposed (c := c.withQueue q) hlive]
          rfl
      | false =>
          rw [scrollToIndex_of_live hlive, scrollToIndex_of_live (c := c.withQueue q) hlive]
          rfl
  | update u => rfl
  | enqueue event => cases hr
  | drain => cases hr
  | dispose => cases hr

theorem deliver_isDisposed (c : ScrollController ι α) (event : HostEvent) :
    (c.deliver event).state.isDisposed = c.isDisposed := by
  cases event with
  | scroll offset now =>
      cases hlive : c.isDisposed with
      | true =>
          rw [deliver, onScroll_of_disposed hlive]
          exact hlive
      | false => exact (onScroll_of_live hlive offset now).2.1
  | resize extent =>
      cases hlive : c.isDisposed with
      | true =>
          rw [deliver, onResize_of_disposed hlive]
          exact hlive
      | false =>
          rw [deliver, onResize_of_live hlive]
          exact hlive
  | tick now =>
      rw [deliver]
      cases hpoll : (c.scrollEnd.poll now).result with
      | none =>
          rw [tick_of_none hpoll]
          rfl
      | some x =>
          rw [tick_of_some hpoll]
          rfl

theorem apply_isDisposed {r : Request ι α} (hr : r.isDirect = true) (c : ScrollController ι α) :
    (c.apply r).state.isDisposed = c.isDisposed := by
  cases r with
  | deliver event => exact deliver_isDisposed c event
  | scrollTo index alignment =>
      rw [apply]
      cases hlive : c.isDisposed with
      | true =>
          rw [scrollToIndex_of_disposed hlive]
          exact hlive
      | false =>
          rw [scrollToIndex_of_live hlive]
          exact hlive
  | update u => rfl
  | enqueue event => cases hr
  | drain => cases hr
  | dispose => cases hr

/-! ## Draining -/

theorem deliver_eq_handle : deliver (ι := ι) (α := α) = handle := by
  funext c event
  cases event <;> rfl

theorem run_withQueue (q : List HostEvent) (c : ScrollController ι α) (es : List HostEvent) :
    Step.run deliver (c.withQueue q) es = (Step.run deliver c es).within (withQueue q) :=
  Step.run_within (fun c e _ => deliver_withQueue q c e) c

theorem drain_nil (c : ScrollController ι α) :
    (c.withQueue []).drain = .quiet (c.withQueue []) 0 := by
  rw [drain]
  rfl

theorem drain_cons (event : HostEvent) (rest : List HostEvent) (c : ScrollController ι α) :
    (c.withQueue (event :: rest)).drain
      = ((c.withQueue rest).deliver event).andThen fun c _ => c.drain.map (· + 1) := by
  rw [drain]
  rfl

/-- Draining is a run over the queue: an event that is delivered while others wait does what
it would do without them. -/
theorem drain_eq : ∀ (q : List HostEvent) (c : ScrollController ι α),
    (c.withQueue q).drain = ((Step.run deliver c q).within (withQueue [])).map List.length
  | [], c => drain_nil c
  | event :: rest, c => by
      rw [drain_cons, deliver_withQueue, Step.run]
      show Step.mk _ _ _ = Step.mk _ _ _
      simp only [Step.within_state, Step.within_events, drain_eq rest (c.deliver event).state]
      rfl

theorem foldl_enqueue (hlive : c.isDisposed = false) (chunk : List HostEvent) :
    chunk.foldl enqueue c = c.withQueue (c.queue ++ chunk) := by
  induction chunk generalizing c with
  | nil => rw [List.append_nil]; rfl
  | cons event chunk ih =>
      have henqueue : c.enqueue event = c.withQueue (c.queue ++ [event]) :=
        if_neg (by rw [hlive]; exact Bool.false_ne_true)
      rw [List.foldl_cons, henqueue, ih (c := c.withQueue (c.queue ++ [event])) hlive]
      show c.withQueue (c.queue ++ [event] ++ chunk) = _
      rw [List.append_assoc]
      rfl

theorem run_deliver_queue (c : ScrollController ι α) (es : List HostEvent) :
    (Step.run deliver c es).state.queue = c.queue := by
  have h := congrArg (·.state.queue) (run_withQueue c.queue c es)
  exact h

theorem run_deliver_isDisposed (c : ScrollController ι α) (es : List HostEvent) :
    (Step.run deliver c es).state.isDisposed = c.isDisposed := by
  induction es generalizing c with
  | nil => rfl
  | cons event es ih => exact (ih _).trans (deliver_isDisposed c event)

/-- A chunk that is queued and drained does what its events do directly. -/
theorem deliverQueued_eq (hlive : c.isDisposed = false) (hq : c.queue = [])
    (chunk : List HostEvent) :
    c.deliverQueued chunk = (Step.run deliver c chunk).map List.length := by
  have hqueue : (Step.run deliver c chunk).state.withQueue []
      = (Step.run deliver c chunk).state := by
    rw [← hq, ← run_deliver_queue c chunk]
    rfl
  rw [deliverQueued, foldl_enqueue hlive, hq, List.nil_append, drain_eq]
  show Step.mk _ _ _ = Step.mk _ _ _
  simp only [Step.within_state, hqueue]
  rfl

theorem run_deliverQueued (hlive : c.isDisposed = false) (hq : c.queue = [])
    (chunks : List (List HostEvent)) :
    (Step.run deliverQueued c chunks).state = (Step.run deliver c chunks.flatten).state
      ∧ (Step.run deliverQueued c chunks).events = (Step.run deliver c chunks.flatten).events
      ∧ (Step.run deliverQueued c chunks).result = chunks.map List.length := by
  induction chunks generalizing c with
  | nil => exact ⟨rfl, rfl, rfl⟩
  | cons chunk chunks ih =>
      obtain ⟨hstate, hevents, hresult⟩ :=
        ih ((run_deliver_isDisposed c chunk).trans hlive) ((run_deliver_queue c chunk).trans hq)
      simp only [Step.run, deliverQueued_eq hlive hq, List.flatten_cons, Step.run_append_state,
        Step.run_append_events]
      refine ⟨hstate, congrArg (_ ++ ·) hevents, ?_⟩
      simp [hresult, Step.length_run_result]

/-! ## Direct requests while events are queued -/

/-- Direct requests and others that only queue an event: the direct ones act as if nothing were
queued, and the events queue up in order. -/
theorem run_round {rs : List (Request ι α)}
    (hrs : ∀ r ∈ rs, r.isDirect = true ∨ ∃ event, r = .enqueue event)
    (hlive : c.isDisposed = false) (q : List HostEvent) :
    (Step.run apply (c.withQueue q) rs).state
        = (Step.run apply c (rs.filter Request.isDirect)).state.withQueue
          (q ++ rs.filterMap Request.queued?)
      ∧ (Step.run apply (c.withQueue q) rs).events
        = (Step.run apply c (rs.filter Request.isDirect)).events := by
  induction rs generalizing c q with
  | nil => exact ⟨by rw [List.filterMap_nil, List.append_nil]; rfl, rfl⟩
  | cons r rs ih =>
      have hrest := fun r hr => hrs r (List.mem_cons_of_mem _ hr)
      rcases hrs r (List.mem_cons_self ..) with hr | ⟨event, rfl⟩
      · have hqueued : r.queued? = none := by
          cases r with
          | enqueue event => cases hr
          | _ => rfl
        obtain ⟨hstate, hevents⟩ := ih hrest ((apply_isDisposed hr c).trans hlive) q
        rw [List.filter_cons_of_pos hr, List.filterMap_cons_none hqueued, Step.run, Step.run,
          apply_withQueue hr]
        exact ⟨hstate, congrArg (_ ++ ·) hevents⟩
      · have henqueue : (c.withQueue q).apply (.enqueue event)
            = .quiet (c.withQueue (q ++ [event])) .done :=
          congrArg (Step.quiet · _) (if_neg (by
            show ¬ c.isDisposed = true
            rw [hlive]
            exact Bool.false_ne_true))
        obtain ⟨hstate, hevents⟩ := ih hrest hlive (q ++ [event])
        have hqueued : (Request.enqueue event :: rs).filterMap Request.queued?
            = event :: rs.filterMap Request.queued? := rfl
        rw [List.append_assoc] at hstate
        rw [Step.run, henqueue, List.filter_cons_of_neg (by exact Bool.false_ne_true), hqueued]
        exact ⟨hstate, hevents⟩

/-! ## Every controller -/

/-- That a controller acts on queued events as it does on others. -/
structure ActsInOrder (c : ScrollController ι α) : Prop where
  /-- Events that are queued and drained in chunks do what they do directly. -/
  chunks : c.queue = [] → ∀ chunks : List (List HostEvent),
    (Step.run deliverQueued c chunks).state = (Step.run handle c chunks.flatten).state
      ∧ (Step.run deliverQueued c chunks).events = (Step.run handle c chunks.flatten).events
      ∧ (Step.run deliverQueued c chunks).result = chunks.map List.length
      ∧ ∀ k, (Step.run deliverQueued c (chunks.take k)).state.queue = []
  /-- Direct requests among others that queue an event act first. When the queue is drained
  after them, all that was queued acts, once and in order. -/
  mixed : ∀ rs : List (Request ι α),
    (∀ r ∈ rs, r.isDirect = true ∨ ∃ event, r = .enqueue event) →
      let direct := rs.filter Request.isDirect
      let queued := c.queue ++ rs.filterMap Request.queued?
      (Step.run apply c rs).state = (Step.run apply c direct).state.withQueue queued
        ∧ (Step.run apply c rs).events = (Step.run apply c direct).events
        ∧ (Step.run apply c (rs ++ [.drain])).state
          = (Step.run handle (Step.run apply c direct).state queued).state.withQueue []
        ∧ (Step.run apply c (rs ++ [.drain])).events
          = (Step.run apply c direct).events
            ++ (Step.run handle (Step.run apply c direct).state queued).events
        ∧ (Step.run apply c (rs ++ [.drain])).result
          = (Step.run apply c rs).result ++ [.drained queued.length]

/-- Whatever happened to a controller before: until it is disposed of, it makes no difference to
an event whether it was queued, except that what is asked directly meanwhile comes first. -/
theorem queued_acts_like_direct (hlive : c.isDisposed = false) : ActsInOrder c := by
  constructor
  · intro hq chunks
    rw [← deliver_eq_handle]
    obtain ⟨hstate, hevents, hresult⟩ := run_deliverQueued hlive hq chunks
    refine ⟨hstate, hevents, hresult, ?_⟩
    intro k
    rw [(run_deliverQueued hlive hq (chunks.take k)).1, run_deliver_queue, hq]
  · intro rs hrs direct queued
    obtain ⟨hstate, hevents⟩ := run_round hrs hlive c.queue
    rw [withQueue_self] at hstate hevents
    rw [← deliver_eq_handle]
    refine ⟨hstate, hevents, ?_, ?_, ?_⟩
    · rw [Step.run_append_state, hstate]
      show ((Step.run apply c direct).state.withQueue queued).drain.state = _
      rw [drain_eq]
      rfl
    · rw [Step.run_append_events, hstate, hevents]
      show _ ++ (((Step.run apply c direct).state.withQueue queued).drain.events ++ []) = _
      rw [List.append_nil, drain_eq]
      rfl
    · rw [Step.run_append_result, hstate]
      show _ ++ [Answer.drained ((Step.run apply c direct).state.withQueue queued).drain.result] = _
      rw [drain_eq]
      simp [Step.length_run_result]

/-- In the middle of a gesture. -/
theorem queued_acts_like_direct_gesture :
    ∃ l c : ScrollController Nat Nat,
      create #[0, 1, 2] { itemExtent := 60.0, viewportExtent := 90.0, listener := some 0 } {}
          = .ok l
        ∧ c = (l.onScroll 60.0 7).state ∧ c.isScrolling = true ∧ c.queue = []
        ∧ c.isDisposed = false ∧ ActsInOrder c
        ∧ (c.deliverQueued [.scroll 90.0 8, .resize 30.0, .tick 500]).state
          = ((((c.onScroll 90.0 8).state.onResize 30.0).state).tick 500).state :=
  ⟨_, _, rfl, rfl, rfl, rfl, rfl, queued_acts_like_direct rfl,
    ((queued_acts_like_direct rfl).chunks rfl [[.scroll 90.0 8, .resize 30.0, .tick 500]]).1⟩

end ScrollController

end Windowing
