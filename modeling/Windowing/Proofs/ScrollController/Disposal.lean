import Windowing.Proofs.ScrollController.Queue

/-!
# Disposal is final

A controller has no flag of its own that says it is disposed of. Events, sizes and scrolling by
program are turned away by the flag of the throttle, a tick by that of the debouncer, and there
is nothing to drain because nothing gets into the queue. What holds these together is that
disposing of the controller once more would change nothing (`c.dispose = c`): all four facts
follow from it, and no request breaks it. So a request comes to no more than `refused`, which
says what is left of it for the list (`apply_of_disposed` for one request, `run_of_disposed` for
all that come after it), and only a change of the list itself does anything (`disposal_final`).
-/

namespace Windowing

namespace ScrollController

variable {ι α : Type} {c : ScrollController ι α}

/-- What is left of a request once the controller is disposed of. The list may still be changed
by its owner; scrolling by program just tells where the list is. -/
def refused (l : WindowedList ι α) : Request ι α → ListStep ι α Answer
  | .deliver _ => .quiet l (.delivered false)
  | .enqueue _ => .quiet l .done
  | .drain => .quiet l (.drained 0)
  | .scrollTo .. => .quiet l (.scrolledTo l.viewport.scrollOffset)
  | .update u => (l.apply u).map .updated
  | .dispose => .quiet l .done

/-- The controller with another list. -/
def withNewList (c : ScrollController ι α) (list : WindowedList ι α) : ScrollController ι α :=
  { c with list }

/-! ## What is disposed of stays so -/

theorem dispose_dispose (c : ScrollController ι α) : c.dispose.dispose = c.dispose := rfl

theorem isDisposed_of_dispose (h : c.dispose = c) : c.isDisposed = true := by
  rw [← h]
  rfl

theorem queue_of_dispose (h : c.dispose = c) : c.queue = [] := by
  rw [← h]
  rfl

theorem isScrolling_of_dispose (h : c.dispose = c) : c.isScrolling = false := by
  rw [← h]
  rfl

theorem deadline_of_rest (h : c.isScrolling = false) : c.deadline = none :=
  Option.isNone_iff_eq_none.mp (Option.isSome_eq_false_iff.mp h)

/-! ## One request -/

theorem deliver_of_disposed (h : c.dispose = c) (event : HostEvent) :
    c.deliver event = .quiet c false := by
  have hd := isDisposed_of_dispose h
  cases event with
  | scroll offset now => exact onScroll_of_disposed hd offset now
  | resize extent =>
      rw [deliver, onResize_of_disposed hd]
      rfl
  | tick now => exact tick_of_rest (isScrolling_of_dispose h) now

theorem drain_of_disposed (h : c.dispose = c) : c.drain = .quiet c 0 := by
  have hq : c.withQueue [] = c := by rw [← queue_of_dispose h, withQueue_self]
  rw [← hq]
  exact drain_nil c

theorem apply_of_disposed (h : c.dispose = c) (r : Request ι α) :
    c.apply r = (refused c.list r).within c.withNewList := by
  have hd := isDisposed_of_dispose h
  cases r with
  | deliver event =>
      rw [apply, deliver_of_disposed h]
      rfl
  | enqueue event =>
      rw [apply, show c.enqueue event = c from if_pos hd]
      rfl
  | drain =>
      rw [apply, drain_of_disposed h]
      rfl
  | scrollTo index alignment =>
      rw [apply, scrollToIndex_of_disposed hd]
      rfl
  | update u => rfl
  | dispose =>
      rw [apply, h]
      rfl

theorem dispose_withNewList (h : c.dispose = c) (list : WindowedList ι α) :
    (c.withNewList list).dispose = c.withNewList list :=
  congrArg (·.withNewList list) h

/-! ## Every run -/

/-- Requests to a controller that is disposed of are requests to its list. -/
theorem run_of_disposed (h : c.dispose = c) (rs : List (Request ι α)) :
    Step.run apply c rs = (Step.run refused c.list rs).within c.withNewList := by
  induction rs generalizing c with
  | nil => rfl
  | cons r rs ih =>
      have hnext := dispose_withNewList h (refused c.list r).state
      rw [Step.run, apply_of_disposed h, Step.run]
      show Step.mk _ _ _ = Step.mk _ _ _
      simp only [Step.within_state, ih hnext]
      rfl

theorem refused_of_not_update {r : Request ι α} (h : ∀ u, r ≠ .update u)
    (l : WindowedList ι α) : refused l r = .quiet l (refused l r).result := by
  cases r with
  | update u => exact absurd rfl (h u)
  | _ => rfl

theorem run_refused {rs : List (Request ι α)} (h : ∀ r ∈ rs, ∀ u, r ≠ .update u)
    (l : WindowedList ι α) :
    Step.run refused l rs = .quiet l (rs.map fun r => (refused l r).result) := by
  induction rs with
  | nil => rfl
  | cons r rs ih =>
      have hhead := refused_of_not_update (h r (List.mem_cons_self ..)) l
      have htail := ih fun r' hr' => h r' (List.mem_cons_of_mem _ hr')
      rw [Step.run, hhead]
      show Step.mk _ _ _ = Step.mk _ _ _
      simp only [Step.quiet_state, htail]
      rfl

/-- Whatever a controller was doing when it was disposed of: no event, queued or not, and no
scrolling by program changes anything from then on, or makes the listener of the list be told of
anything. The queue stays empty and no gesture is under way. Should its owner change the list
meanwhile, then the list is changed, but nothing else is. -/
theorem disposal_final (c : ScrollController ι α) (rs : List (Request ι α)) :
    ((∀ r ∈ rs, ∀ u, r ≠ .update u) →
        (Step.run apply c.dispose rs).state = c.dispose
          ∧ (Step.run apply c.dispose rs).state.list = c.list
          ∧ (Step.run apply c.dispose rs).events = []
          ∧ (Step.run apply c.dispose rs).result = rs.map fun r => (refused c.list r).result)
      ∧ Step.run apply c.dispose rs = (Step.run refused c.list rs).within c.dispose.withNewList
      ∧ (Step.run apply c.dispose rs).state.queue = []
      ∧ (Step.run apply c.dispose rs).state.isScrolling = false
      ∧ (Step.run apply c.dispose rs).state.deadline = none := by
  have hrun := run_of_disposed (dispose_dispose c) rs
  have hstate : (Step.run apply c.dispose rs).state.dispose
      = (Step.run apply c.dispose rs).state := by
    rw [hrun]
    exact dispose_withNewList (dispose_dispose c) _
  refine ⟨fun hrs => ?_, hrun, queue_of_dispose hstate, isScrolling_of_dispose hstate,
    deadline_of_rest (isScrolling_of_dispose hstate)⟩
  rw [hrun, show c.dispose.list = c.list from rfl, run_refused hrs]
  exact ⟨rfl, rfl, rfl, rfl⟩

/-- In the middle of a gesture, with a dropped offset that waits and an event in the queue. -/
theorem disposal_final_gesture :
    ∃ (l c : ScrollController Nat Nat) (rs : List (Request Nat Nat)),
      create #[0, 1, 2] { itemExtent := 60.0, viewportExtent := 90.0, listener := some 0 } {}
          = .ok l
        ∧ c = (((l.onScroll 60.0 7).state.onScroll 90.0 8).state.enqueue (.resize 30.0))
        ∧ c.isScrolling = true ∧ c.queue = [.resize 30.0]
        ∧ rs = [.deliver (.tick 500), .enqueue (.tick 500), .drain, .scrollTo 2 .leading, .dispose,
          .deliver (.scroll 0.0 600)]
        ∧ (∀ r ∈ rs, ∀ u, r ≠ .update u)
        ∧ (Step.run apply c.dispose rs).state = c.dispose
        ∧ (Step.run apply c.dispose rs).events = []
        ∧ (Step.run apply c.dispose rs).result
          = [.delivered false, .done, .drained 0, .scrolledTo 60.0, .done, .delivered false] := by
  have hrs : ∀ r ∈ ([.deliver (.tick 500), .enqueue (.tick 500), .drain, .scrollTo 2 .leading,
      .dispose, .deliver (.scroll 0.0 600)] : List (Request Nat Nat)), ∀ u, r ≠ .update u := by
    simp
  refine ⟨_, _, _, rfl, rfl, rfl, rfl, rfl, hrs, ?_⟩
  obtain ⟨hstate, -, hevents, hresult⟩ := (disposal_final _ _).1 hrs
  exact ⟨hstate, hevents, hresult⟩

end ScrollController

end Windowing
