import Windowing.Proofs.ScrollController.Events
import Windowing.Proofs.WindowedList.Moving

/-!
# Controllers at rest

A controller drops scroll offsets and applies the last one late, yet whenever it is at
rest its list is where it would be if every event had been applied at once (`direct`).
`Follows` is what relates the two in between: they differ in the scroll offset only, and
while a gesture is going on the debouncer holds the very last offset that came in, which
is where the other list is. `Follows.deliver` is the step and `Follows.run` the run;
`settles_where_direct` reads the result off.
-/

namespace Windowing

open Binary

namespace HostEvent

/-- What an event means for a list without a controller. -/
def update? {ι α : Type} : HostEvent → Option (Update ι α)
  | .scroll offset _ => some (.scrollOffset offset)
  | .resize extent => some (.viewportExtent extent)
  | .tick _ => none

/-- The last scroll offset and its time, after one more event. -/
def noteScroll (last : Option (Float × Nat)) : HostEvent → Option (Float × Nat)
  | .scroll offset now => some (offset, now)
  | _ => last

end HostEvent

/-- The last scroll offset among events, with its time. -/
def lastScroll (es : List HostEvent) : Option (Float × Nat) :=
  es.foldl HostEvent.noteScroll none

/-- The list after the events, each applied to it at once. -/
def WindowedList.direct {ι α : Type} (l : WindowedList ι α) (es : List HostEvent) :
    WindowedList ι α :=
  (Step.run apply l (es.filterMap HostEvent.update?)).state

namespace ScrollController

variable {ι α : Type} {c : ScrollController ι α} {r : WindowedList ι α}
  {settings : ControllerSettings} {last : Option (Float × Nat)}

/-! ## The relation -/

/-- How a controller is related to a list that was moved at once. At rest the scroll
offsets compare equal; during a gesture the offset that waits is the last one that came
in, and the other list is there. -/
structure Follows (settings : ControllerSettings) (last : Option (Float × Nat))
    (c : ScrollController ι α) (r : WindowedList ι α) : Prop where
  coherent : c.list.Coherent
  coherent_direct : r.Coherent
  items_eq : c.list.items = r.items
  settings_eq : c.list.settings = r.settings
  extent_eq : c.list.viewport.extent = r.viewport.extent
  live : c.isDisposed = false
  live_end : c.scrollEnd.disposed = false
  delay_eq : c.scrollEnd.delay = settings.scrollEndDelay
  rest : c.isScrolling = false →
    (c.list.viewport.scrollOffset == r.viewport.scrollOffset) = true
  gesture : c.isScrolling = true → ∃ x now, last = some (x, now)
    ∧ c.scrollEnd.waiting = some (x, Count.add now settings.scrollEndDelay)
    ∧ (r.viewport.scrollOffset == Extent.clamp x) = true

namespace Follows

theorem ofList {l : WindowedList ι α} (h : l.Coherent) (settings : ControllerSettings) :
    Follows settings none (ofList l settings) l where
  coherent := h
  coherent_direct := h
  items_eq := rfl
  settings_eq := rfl
  extent_eq := rfl
  live := rfl
  live_end := rfl
  delay_eq := rfl
  rest _ := beq_self h.scroll_number
  gesture hs := nomatch hs

theorem scroll (h : Follows settings last c r) (x : Float) (now : Nat) :
    Follows settings (some (x, now)) (c.onScroll x now).state (r.setScrollOffset x).state := by
  obtain ⟨hend, hlive, hlist⟩ := onScroll_of_live h.live x now
  obtain ⟨hat, hextent⟩ := h.coherent_direct.setScrollOffset_viewport x
  rw [Debouncer.notify_of_live h.live_end] at hend
  have hwaiting : (c.onScroll x now).state.scrollEnd.waiting
      = some (x, Count.add now settings.scrollEndDelay) := by
    rw [hend, ← h.delay_eq]
    rfl
  have hlist' : (c.onScroll x now).state.list.Coherent
      ∧ (c.onScroll x now).state.list.items = c.list.items
      ∧ (c.onScroll x now).state.list.settings = c.list.settings
      ∧ (c.onScroll x now).state.list.viewport.extent = c.list.viewport.extent := by
    rcases hlist with hlist | hlist
    · rw [hlist]
      exact ⟨h.coherent, rfl, rfl, rfl⟩
    · rw [hlist]
      exact ⟨h.coherent.apply (.scrollOffset x), WindowedList.moveTo_items ..,
        WindowedList.moveTo_settings .., (h.coherent.setScrollOffset_viewport x).2⟩
  obtain ⟨hcoherent, hitems, hsettings, hext⟩ := hlist'
  refine ⟨hcoherent, h.coherent_direct.apply (.scrollOffset x), ?_, ?_, ?_, hlive,
    ?_, ?_, ?_, ?_⟩
  · rw [hitems, h.items_eq]
    exact (WindowedList.moveTo_items ..).symm
  · rw [hsettings, h.settings_eq]
    exact (WindowedList.moveTo_settings ..).symm
  · rw [hext, hextent, h.extent_eq]
  · rw [hend]
    exact h.live_end
  · rw [hend]
    exact h.delay_eq
  · -- The debouncer has just been started, so this is no state of rest.
    intro hrest
    rw [isScrolling, Debouncer.isPending_of_waiting hwaiting] at hrest
    cases hrest
  · intro _
    exact ⟨x, now, rfl, hwaiting, hat⟩

theorem resize (h : Follows settings last c r) (e : Float) :
    Follows settings last (c.onResize e).state (r.setViewportExtent e).state := by
  rw [onResize_of_live h.live]
  have hc := h.coherent.setViewportExtent_viewport e
  have hr := h.coherent_direct.setViewportExtent_viewport e
  refine ⟨h.coherent.apply (.viewportExtent e), h.coherent_direct.apply (.viewportExtent e),
    ?_, ?_, ?_, h.live, h.live_end, h.delay_eq, ?_, ?_⟩
  · show (c.list.setViewportExtent e).state.items = _
    rw [WindowedList.setViewportExtent, WindowedList.setViewport, WindowedList.moveTo_items,
      h.items_eq]
    exact (WindowedList.moveTo_items ..).symm
  · show (c.list.setViewportExtent e).state.settings = _
    rw [WindowedList.setViewportExtent, WindowedList.setViewport, WindowedList.moveTo_settings,
      h.settings_eq]
    exact (WindowedList.moveTo_settings ..).symm
  · show (c.list.setViewportExtent e).state.viewport.extent = _
    rw [hc, hr, h.extent_eq]
  · intro hrest
    show ((c.list.setViewportExtent e).state.viewport.scrollOffset == _) = true
    rw [hc, hr]
    exact h.rest hrest
  · intro hgesture
    obtain ⟨x, now, hlast, hwaiting, hat⟩ := h.gesture hgesture
    refine ⟨x, now, hlast, hwaiting, ?_⟩
    rw [hr]
    exact hat

theorem settled (h : Follows settings last c r) {x : Float}
    (hat : (r.viewport.scrollOffset == Extent.clamp x) = true) :
    Follows settings last (c.settled x) r := by
  obtain ⟨hat', hextent⟩ := h.coherent.setScrollOffset_viewport x
  have hrest : (c.settled x).isScrolling = false := rfl
  refine ⟨h.coherent.apply (.scrollOffset x), h.coherent_direct, ?_, ?_, ?_, h.live, h.live_end,
    h.delay_eq, ?_, ?_⟩
  · exact (WindowedList.moveTo_items ..).trans h.items_eq
  · exact (WindowedList.moveTo_settings ..).trans h.settings_eq
  · exact hextent.trans h.extent_eq
  · intro _
    exact BEq.trans hat' (BEq.symm hat)
  · intro hgesture
    rw [hrest] at hgesture
    cases hgesture

theorem tick (h : Follows settings last c r) (now : Nat) :
    Follows settings last (c.tick now).state r := by
  cases hs : c.isScrolling with
  | false =>
      rw [tick_of_rest hs]
      exact h
  | true =>
      obtain ⟨x, t, -, hwaiting, hat⟩ := h.gesture hs
      rw [tick_of_waiting h.live_end hwaiting]
      split
      · exact h.settled hat
      · exact h

/-- One event keeps the relation, if it is also applied to the other list. -/
theorem deliver (h : Follows settings last c r) (e : HostEvent) :
    Follows settings (HostEvent.noteScroll last e) (c.deliver e).state (r.direct [e]) := by
  cases e with
  | scroll x now => exact h.scroll x now
  | resize e => exact h.resize e
  | tick now => exact h.tick now

theorem run :
    ∀ (es : List HostEvent) {last : Option (Float × Nat)} {c : ScrollController ι α}
      {r : WindowedList ι α}, Follows settings last c r →
      Follows settings (es.foldl HostEvent.noteScroll last)
        (Step.run ScrollController.deliver c es).state (r.direct es)
  | [], _, _, _, h => h
  | e :: es, _, _, r, h => by
      have hdirect : r.direct (e :: es) = (r.direct [e]).direct es := by
        have happ : List.filterMap (@HostEvent.update? ι α) (e :: es)
            = List.filterMap HostEvent.update? [e] ++ List.filterMap HostEvent.update? es :=
          List.filterMap_append (l := [e])
        rw [WindowedList.direct, happ, Step.run_append_state]
        rfl
      rw [hdirect]
      exact run es (h.deliver e)

theorem showsSame (h : Follows settings last c r) (hs : c.isScrolling = false) :
    WindowedList.ShowsSame c.list r := by
  have hview : (c.list.viewport == r.viewport) = true := by
    refine Viewport.beq_iff_same.mpr ⟨h.rest hs, ?_⟩
    rw [h.extent_eq]
    exact beq_self h.coherent_direct.extent_number
  refine WindowedList.showsSame_of_viewport h.coherent h.coherent_direct ?_ ?_ ?_ hview
  · rw [h.items_eq]
  · rw [h.settings_eq]
  · rw [h.settings_eq]

end Follows

/-! ## Every run -/

/-- Controllers as they are built, for a list that may have a history. -/
inductive Fresh (settings : ControllerSettings) : ScrollController ι α → Prop where
  | ofList {l : WindowedList ι α} : l.Reachable → Fresh settings (ofList l settings)
  | create {items : Array α} {listSettings : ListSettings ι} {c : ScrollController ι α} :
      create items listSettings settings = .ok c → Fresh settings c

theorem Fresh.follows (h : Fresh settings c) : Follows settings none c c.list := by
  cases h with
  | ofList hl => exact Follows.ofList hl.coherent settings
  | @create items listSettings _ hc =>
      obtain ⟨l, hl, rfl⟩ := SettingError.passed_of_map_eq_ok hc
      exact Follows.ofList (WindowedList.create_coherent hl) settings

/-- The controller after the events, each delivered at once. -/
def after (c : ScrollController ι α) (es : List HostEvent) : ScrollController ι α :=
  (Step.run deliver c es).state

/-- What a controller `c` that has taken in the events `es` and a list `r` to which they
were applied at once have to do with each other. -/
structure Settles (settings : ControllerSettings) (es : List HostEvent)
    (c : ScrollController ι α) (r : WindowedList ι α) : Prop where
  /-- At rest the list of the controller shows the same. -/
  rest : c.isScrolling = false → WindowedList.ShowsSame c.list r
  /-- During a gesture the deadline is that of the last offset. No tick before it does
  anything, and the first one from then on ends the gesture at that offset. -/
  gesture : c.isScrolling = true → ∃ x t, lastScroll es = some (x, t)
    ∧ c.deadline = some (min (t + settings.scrollEndDelay) Count.limit)
    ∧ ∀ now,
      (now < min (t + settings.scrollEndDelay) Count.limit → c.tick now = .quiet c false)
      ∧ (min (t + settings.scrollEndDelay) Count.limit ≤ now →
        c.tick now = ⟨c.settled x, (c.list.setScrollOffset x).events, true⟩
          ∧ (c.list.setScrollOffset x).events.length ≤ 1
          ∧ (c.settled x).isScrolling = false ∧ (c.settled x).deadline = none
          ∧ WindowedList.ShowsSame (c.settled x).list r)

/-- Whatever offsets, sizes and times a new controller takes in, and in whatever order:
it settles where the events lead that are applied at once. -/
theorem settles_where_direct (h : Fresh settings c) (es : List HostEvent) :
    Settles settings es (c.after es) (c.list.direct es) := by
  have hrun : Follows settings (lastScroll es) (c.after es) (c.list.direct es) :=
    Follows.run es h.follows
  refine ⟨hrun.showsSame, fun hs => ?_⟩
  obtain ⟨x, t, hlast, hwaiting, hat⟩ := hrun.gesture hs
  have hrest : ((c.after es).settled x).isScrolling = false := rfl
  refine ⟨x, t, hlast, (Debouncer.waiting_eq_some.mp hwaiting).2,
    fun now => ⟨fun hnow => ?_, fun hnow => ?_⟩⟩
  · rw [tick_of_waiting hrun.live_end hwaiting]
    exact if_neg (Nat.not_le.mpr hnow)
  · refine ⟨?_, WindowedList.moveTo_events_length .., hrest, ?_,
      (hrun.settled hat).showsSame hrest⟩
    · rw [tick_of_waiting hrun.live_end hwaiting]
      exact if_pos hnow
    · exact Option.isNone_iff_eq_none.mp (Option.isSome_eq_false_iff.mp hrest)

theorem settles_where_direct_dropped :
    ∃ (c : ScrollController Nat Nat) (es : List HostEvent),
      create #[0, 1, 2] { itemExtent := 60.0, viewportExtent := 90.0 } {} = .ok c
      ∧ es = [.scroll 60.0 7, .scroll (0.0 / 0.0) 3, .resize 30.0, .tick 100, .scroll (-1.0) 9]
      ∧ Settles {} es (c.after es) (c.list.direct es) := by
  have h : create #[0, 1, 2] { itemExtent := 60.0, viewportExtent := 90.0 } {}
      = .ok (ofList
        (WindowedList.refresh
          { items := #[0, 1, 2]
            settings := ({ itemExtent := 60.0, viewportExtent := 90.0 } : ListSettings Nat)
            viewport := Viewport.clamped 0.0 90.0
            window := .empty, batchDepth := 0, changePending := false }) {}) := rfl
  exact ⟨_, _, h, rfl, settles_where_direct (.create h) _⟩

end ScrollController

end Windowing
