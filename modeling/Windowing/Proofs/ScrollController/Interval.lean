import Windowing.Proofs.ScrollController.Settling

/-!
# When offsets are applied at once

An offset is applied at once when the scroll interval lies between it and each one that was
before it. The tick that ends a gesture opens the throttle again, so an offset that comes after
it need not wait for the interval. But a gesture goes on for its delay after each of its
offsets, so not even then is one applied before that delay is over.

`Remembers` says how throttle and debouncer stand for the log of a controller, and
`Remembers.step` that every event leaves it so; `applied_iff_interval_or_ended` reads off when
an offset is applied, and `interval_cut_short` is a gesture that ends too early for the interval.
-/

namespace Windowing

/-- When an event happened, if it tells. -/
def HostEvent.time? : HostEvent → Option Nat
  | .scroll _ now => some now
  | .resize _ => none
  | .tick now => some now

/-- The clock of the host never goes back. -/
def Timely (es : List HostEvent) : Prop := (es.filterMap HostEvent.time?).Pairwise (· ≤ ·)

instance (es : List HostEvent) : Decidable (Timely es) :=
  inferInstanceAs (Decidable (List.Pairwise _ _))

theorem timely_concat {es : List HostEvent} {e : HostEvent} :
    Timely (es ++ [e]) ↔
      Timely es ∧ ∀ now, e.time? = some now → ∀ t ∈ es.filterMap HostEvent.time?, t ≤ now := by
  unfold Timely
  rw [List.filterMap_append, List.pairwise_append]
  cases he : e.time? with
  | none => simp [he]
  | some now => simp [he]

namespace ScrollController

variable {ι α : Type} {c c' : ScrollController ι α} {settings : ControllerSettings}
  {es : List HostEvent} {e : HostEvent} {log since : List (HostEvent × Bool)} {clock t now : Nat}
  {x : Float}

/-! ## Logs -/

/-- A log tells that an offset was applied at once at the time `t`, and what came since. -/
def AppliedAt (log : List (HostEvent × Bool)) (t : Nat) (since : List (HostEvent × Bool)) : Prop :=
  ∃ x, (.scroll x t, true) :: since <:+ log

theorem AppliedAt.time_mem (h : AppliedAt (Step.log deliver c es) t since) :
    t ∈ es.filterMap HostEvent.time? := by
  obtain ⟨x, hx⟩ := h
  have hmem := List.mem_map_of_mem (f := Prod.fst) (hx.mem (List.mem_cons_self ..))
  rw [Step.map_fst_log] at hmem
  exact List.mem_filterMap.mpr ⟨_, hmem, rfl⟩

theorem appliedAt_concat {r : Bool} : AppliedAt (log ++ [(e, r)]) t since ↔
    ((∃ x, e = .scroll x t) ∧ r = true ∧ since = [])
      ∨ ∃ since', since = since' ++ [(e, r)] ∧ AppliedAt log t since' := by
  constructor
  · rintro ⟨x, hx⟩
    obtain hnil | ⟨l, hl, hsuffix⟩ := List.suffix_concat_iff.mp hx
    · cases hnil
    cases l with
    | nil =>
        cases hl
        exact Or.inl ⟨⟨x, rfl⟩, rfl, rfl⟩
    | cons _ l =>
        obtain ⟨rfl, hsince⟩ := List.cons_eq_cons.mp hl
        exact Or.inr ⟨l, hsince, x, hsuffix⟩
  · rintro (⟨⟨x, rfl⟩, rfl, rfl⟩ | ⟨since', rfl, x, hx⟩)
    · exact ⟨x, List.suffix_append ..⟩
    · exact ⟨x, List.suffix_concat_iff.mpr (Or.inr ⟨_, rfl, hx⟩)⟩

/-! ## Controllers that are live -/

/-- A controller that works by these settings and has not been disposed of. -/
structure Works (settings : ControllerSettings) (c : ScrollController ι α) : Prop where
  live : c.isDisposed = false
  interval_eq : c.scroll.interval = settings.scrollInterval
  live_end : c.scrollEnd.disposed = false
  delay_eq : c.scrollEnd.delay = settings.scrollEndDelay

theorem Fresh.works (h : Fresh settings c) : Works settings c := by
  cases h with
  | ofList hl => exact ⟨rfl, rfl, rfl, rfl⟩
  | create hc =>
      obtain ⟨l, -, rfl⟩ := SettingError.passed_of_map_eq_ok hc
      exact ⟨rfl, rfl, rfl, rfl⟩

theorem Fresh.lastTime (h : Fresh settings c) : c.scroll.lastTime = none := by
  cases h with
  | ofList hl => rfl
  | create hc =>
      obtain ⟨l, -, rfl⟩ := SettingError.passed_of_map_eq_ok hc
      rfl

namespace Works

theorem notify (h : Works settings c) (x : Float) (now : Nat) :
    c.scrollEnd.notify x now
      = { c.scrollEnd with
          latest := some x
          deadline := some (min (now + settings.scrollEndDelay) Count.limit) } := by
  rw [Debouncer.notify_of_live h.live_end, ← h.delay_eq]
  rfl

theorem onScroll (h : Works settings c) (x : Float) (now : Nat) :
    Works settings (c.onScroll x now).state := by
  cases hopen : c.scroll.isOpen now with
  | true =>
      rw [onScroll_of_open hopen, h.notify]
      exact ⟨h.live, h.interval_eq, h.live_end, h.delay_eq⟩
  | false =>
      rw [onScroll_of_shut h.live hopen, h.notify]
      exact ⟨h.live, h.interval_eq, h.live_end, h.delay_eq⟩

theorem resize (h : Works settings c) (extent : Float) :
    Works settings (c.onResize extent).state := by
  rw [onResize_of_live h.live]
  exact ⟨h.live, h.interval_eq, h.live_end, h.delay_eq⟩

theorem settled (h : Works settings c) (x : Float) : Works settings (c.settled x) :=
  ⟨h.live, h.interval_eq, h.live_end, h.delay_eq⟩

end Works

/-! ## During a gesture -/

/-- The gesture to which an offset at the time `t` belongs goes on. -/
structure InGesture (settings : ControllerSettings) (t : Nat) (c : ScrollController ι α) :
    Prop where
  last : ∃ last, c.scroll.lastTime = some last ∧ t ≤ last
  waits : ∃ x due, c.scrollEnd.waiting = some (x, due)
    ∧ min (t + settings.scrollEndDelay) Count.limit ≤ due

namespace InGesture

theorem applied (h : Works settings c) (hopen : c.scroll.isOpen now = true) (x : Float)
    (hle : t ≤ now) : InGesture settings t (c.onScroll x now).state := by
  rw [onScroll_of_open hopen, h.notify]
  exact ⟨⟨now, rfl, hle⟩, x, _, rfl, by omega⟩

theorem dropped (h : InGesture settings t c) (hworks : Works settings c)
    (hshut : c.scroll.isOpen now = false) (x : Float) (hle : t ≤ now) :
    InGesture settings t (c.onScroll x now).state := by
  rw [onScroll_of_shut hworks.live hshut, hworks.notify]
  exact ⟨h.last, x, _, rfl, by omega⟩

theorem resize (h : InGesture settings t c) (hlive : c.isDisposed = false) (extent : Float) :
    InGesture settings t (c.onResize extent).state := by
  rw [onResize_of_live hlive]
  exact ⟨h.last, h.waits⟩

theorem interval_le (h : InGesture settings t c) (hworks : Works settings c)
    (hopen : c.scroll.isOpen now = true) (hle : t ≤ now) : t + settings.scrollInterval ≤ now := by
  obtain ⟨last, hlast, ht⟩ := h.last
  have hinterval := (Throttle.isOpen_of_live hworks.live).mp hopen last hlast
  rw [hworks.interval_eq] at hinterval
  omega

theorem delay_le (h : InGesture settings t c) (hworks : Works settings c)
    (hended : (c.tick now).result = true) :
    min (t + settings.scrollEndDelay) Count.limit ≤ now := by
  obtain ⟨x, due, hwaiting, hdue⟩ := h.waits
  rw [tick_of_waiting hworks.live_end hwaiting] at hended
  by_cases hnow : due ≤ now
  · exact hdue.trans hnow
  · rw [if_neg hnow] at hended
    cases hended

end InGesture

/-! ## The state and the log -/

/-- What the state of a controller has to do with its log, in which no time is later than
`clock`. -/
structure Remembers (settings : ControllerSettings) (clock : Nat)
    (log : List (HostEvent × Bool)) (c : ScrollController ι α) : Prop where
  works : Works settings c
  /-- The throttle goes by an offset of the gesture that goes on. -/
  last : ∀ last, c.scroll.lastTime = some last →
    ∃ since, AppliedAt log last since ∧ ∀ now, (.tick now, true) ∉ since
  /-- A gesture ends no earlier than its delay after each of its offsets. -/
  ended : ∀ t since, AppliedAt log t since → InGesture settings t c
    ∨ ∃ now, (.tick now, true) ∈ since
      ∧ min (t + settings.scrollEndDelay) Count.limit ≤ now ∧ now ≤ clock

namespace Remembers

theorem fresh (h : Fresh settings c) (clock : Nat) : Remembers settings clock [] c where
  works := h.works
  last := by
    intro last hlast
    rw [h.lastTime] at hlast
    cases hlast
  ended := by
    rintro t since ⟨x, hx⟩
    cases List.suffix_nil.mp hx

/-- Events that are answered with `false` neither apply an offset nor end a gesture. -/
theorem unanswered (h : Remembers settings clock log c) (hworks : Works settings c')
    (hlast : c'.scroll.lastTime = c.scroll.lastTime)
    (hgesture : ∀ t since, AppliedAt log t since → InGesture settings t c →
      InGesture settings t c') (e : HostEvent) :
    Remembers settings clock (log ++ [(e, false)]) c' := by
  refine ⟨hworks, ?_, ?_⟩
  · intro last hl
    obtain ⟨since, happlied, hnone⟩ := h.last last (hlast.symm.trans hl)
    refine ⟨since ++ [(e, false)], appliedAt_concat.mpr (Or.inr ⟨since, rfl, happlied⟩), ?_⟩
    simpa using hnone
  · intro t since happlied
    obtain ⟨-, hfalse, -⟩ | ⟨since', rfl, happlied'⟩ := appliedAt_concat.mp happlied
    · cases hfalse
    obtain hin | ⟨now, hmem, hnow⟩ := h.ended t since' happlied'
    · exact Or.inl (hgesture t since' happlied' hin)
    · exact Or.inr ⟨now, List.mem_append_left _ hmem, hnow⟩

theorem scroll (h : Remembers settings clock log c) (x : Float)
    (hpast : ∀ t since, AppliedAt log t since → t ≤ now) :
    Remembers settings clock (log ++ [(.scroll x now, (c.onScroll x now).result)])
      (c.onScroll x now).state := by
  cases hopen : c.scroll.isOpen now with
  | true =>
      have hresult : (c.onScroll x now).result = true := by rw [onScroll_of_open hopen]
      have hlast : (c.onScroll x now).state.scroll.lastTime = some now := by
        rw [onScroll_of_open hopen]
      rw [hresult]
      refine ⟨h.works.onScroll x now, ?_, ?_⟩
      · intro last hl
        obtain rfl := Option.some.inj (hlast.symm.trans hl)
        exact ⟨[], appliedAt_concat.mpr (Or.inl ⟨⟨x, rfl⟩, rfl, rfl⟩), by simp⟩
      · intro t since happlied
        refine Or.inl (InGesture.applied h.works hopen x ?_)
        obtain ⟨⟨y, hy⟩, -, -⟩ | ⟨since', -, happlied'⟩ := appliedAt_concat.mp happlied
        · cases hy
          exact Nat.le_refl now
        · exact hpast t since' happlied'
  | false =>
      have hresult : (c.onScroll x now).result = false := by
        rw [onScroll_of_shut h.works.live hopen]
        rfl
      rw [hresult]
      refine h.unanswered (h.works.onScroll x now) ?_ ?_ _
      · rw [onScroll_of_shut h.works.live hopen]
        rfl
      · intro t since happlied hin
        exact hin.dropped h.works hopen x (hpast t since happlied)

theorem resize (h : Remembers settings clock log c) (extent : Float) :
    Remembers settings clock (log ++ [(.resize extent, false)]) (c.onResize extent).state := by
  refine h.unanswered (h.works.resize extent) ?_ ?_ _
  · rw [onResize_of_live h.works.live]
    rfl
  · intro t since _ hin
    exact hin.resize h.works.live extent

theorem tick (h : Remembers settings clock log c) (hnow : now ≤ clock) :
    Remembers settings clock (log ++ [(.tick now, (c.tick now).result)]) (c.tick now).state := by
  cases hpoll : (c.scrollEnd.poll now).result with
  | none =>
      obtain ⟨hdelay, hdisposed, hwaiting⟩ := c.scrollEnd.poll_kept now
      rw [tick_of_none hpoll, Step.quiet_state, Step.quiet_result]
      refine h.unanswered ?_ ?_ ?_ _
      · exact ⟨h.works.live, h.works.interval_eq, hdisposed.trans h.works.live_end,
          hdelay.trans h.works.delay_eq⟩
      · rfl
      · intro t since _ hin
        refine ⟨hin.last, ?_⟩
        rw [hwaiting hpoll]
        exact hin.waits
  | some y =>
      have hsettled := tick_of_some hpoll
      rw [hsettled]
      refine ⟨h.works.settled y, ?_, ?_⟩
      · -- The throttle has forgotten the gesture.
        intro last hlast
        cases hlast
      · intro t since happlied
        obtain ⟨⟨y', hy⟩, -⟩ | ⟨since', rfl, happlied'⟩ := appliedAt_concat.mp happlied
        · cases hy
        refine Or.inr ?_
        obtain hin | ⟨now', hmem, hnow'⟩ := h.ended t since' happlied'
        · refine ⟨now, by simp, hin.delay_le h.works ?_, hnow⟩
          rw [hsettled]
        · exact ⟨now', List.mem_append_left _ hmem, hnow'⟩

theorem step (h : Remembers settings clock log c) (e : HostEvent)
    (htime : ∀ now, e.time? = some now →
      now ≤ clock ∧ ∀ t since, AppliedAt log t since → t ≤ now) :
    Remembers settings clock (log ++ [(e, (c.deliver e).result)]) (c.deliver e).state := by
  cases e with
  | scroll x now => exact h.scroll x (htime now rfl).2
  | resize extent => exact h.resize extent
  | tick now => exact h.tick (htime now rfl).1

theorem run (h : Fresh settings c) (htimes : Timely es)
    (hclock : ∀ t ∈ es.filterMap HostEvent.time?, t ≤ clock) :
    Remembers settings clock (Step.log deliver c es) (Step.run deliver c es).state := by
  -- From the end, where the log grows.
  induction es using List.reverseRecOn with
  | nil => exact fresh h clock
  | append_singleton es e ih =>
      obtain ⟨htimes', hpast⟩ := timely_concat.mp htimes
      rw [List.filterMap_append, List.forall_mem_append] at hclock
      rw [Step.log_append, Step.run_append_state]
      refine (ih htimes' hclock.1).step e ?_
      intro now hnow
      refine ⟨hclock.2 now ?_, fun t since happlied => hpast now hnow t happlied.time_mem⟩
      rw [List.filterMap_cons_some hnow]
      exact List.mem_cons_self ..

end Remembers

/-! ## Every run -/

/-- Whatever a new controller has taken in, as long as the clock did not go back: the next
offset is applied at once if and only if, since each offset that was, the interval is over or the
gesture has ended, which it does not before the delay is over. -/
theorem applied_iff_interval_or_ended (h : Fresh settings c)
    (htimes : Timely (es ++ [.scroll x now])) :
    ((Step.run deliver c es).state.onScroll x now).result = true ↔
      ∀ t since, AppliedAt (Step.log deliver c es) t since →
        t + settings.scrollInterval ≤ now
          ∨ ∃ ended, (.tick ended, true) ∈ since
            ∧ min (t + settings.scrollEndDelay) Count.limit ≤ ended ∧ ended ≤ now := by
  obtain ⟨htimes', hpast⟩ := timely_concat.mp htimes
  have hrun : Remembers settings now (Step.log deliver c es) (Step.run deliver c es).state :=
    Remembers.run h htimes' (hpast now rfl)
  cases hopen : (Step.run deliver c es).state.scroll.isOpen now with
  | true =>
      rw [onScroll_of_open hopen]
      refine iff_of_true rfl ?_
      intro t since happlied
      obtain hin | hended := hrun.ended t since happlied
      · exact Or.inl (hin.interval_le hrun.works hopen (hpast now rfl t happlied.time_mem))
      · exact Or.inr hended
  | false =>
      rw [onScroll_of_shut hrun.works.live hopen]
      refine iff_of_false Bool.false_ne_true ?_
      intro hall
      obtain ⟨last, hlast, hlt⟩ := Throttle.lastTime_of_shut hrun.works.live hopen
      rw [hrun.works.interval_eq] at hlt
      obtain ⟨since, happlied, hnone⟩ := hrun.last last hlast
      obtain hle | ⟨ended, hmem, -⟩ := hall last since happlied
      · omega
      · exact hnone ended hmem

/-- With an offset that was dropped, and a tick that came too early, before the gesture ended. -/
theorem applied_iff_interval_or_ended_after_drop :
    ∃ (c : ScrollController Nat Nat) (es : List HostEvent),
      create #[0, 1, 2] { itemExtent := 10.0, viewportExtent := 15.0 }
          { scrollInterval := 100, scrollEndDelay := 10 } = .ok c
        ∧ es = [.scroll 5.0 0, .scroll 7.0 3, .resize 20.0, .tick 10, .tick 13]
        ∧ Timely (es ++ [.scroll 12.0 20])
        ∧ ((Step.run deliver c es).state.onScroll 12.0 20).result = true
        ∧ (((Step.run deliver c es).state.onScroll 12.0 20).result = true ↔
          ∀ t since, AppliedAt (Step.log deliver c es) t since →
            t + 100 ≤ 20 ∨ ∃ ended, (.tick ended, true) ∈ since
              ∧ min (t + 10) Count.limit ≤ ended ∧ ended ≤ 20) := by
  have h : create (ι := Nat) #[0, 1, 2] { itemExtent := 10.0, viewportExtent := 15.0 }
      { scrollInterval := 100, scrollEndDelay := 10 } = .ok _ := rfl
  have htimes : Timely ([.scroll 5.0 0, .scroll 7.0 3, .resize 20.0, .tick 10, .tick 13]
      ++ [.scroll 12.0 20]) := by decide
  exact ⟨_, _, h, rfl, htimes, rfl, applied_iff_interval_or_ended (.create h) htimes⟩

/-- A gesture that ends before the interval is over: two offsets are applied within it. -/
theorem interval_cut_short :
    ¬ ∀ (settings : ControllerSettings) (c : ScrollController Nat Nat) (es : List HostEvent),
      Fresh settings c → Timely es → ∀ t since t' since',
        AppliedAt (Step.log deliver c es) t since → AppliedAt since t' since' →
          t + settings.scrollInterval ≤ t' := by
  intro hinterval
  have h : create (ι := Nat) #[0, 1, 2] { itemExtent := 10.0, viewportExtent := 15.0 }
      { scrollInterval := 100, scrollEndDelay := 10 } = .ok _ := rfl
  have htimes : Timely [.scroll 5.0 0, .tick 10, .scroll 12.0 20] := by decide
  have hclose := hinterval _ _ _ (.create h) htimes 0
    [(.tick 10, true), (.scroll 12.0 20, true)] 20 [] ⟨5.0, List.suffix_rfl⟩
    ⟨12.0, List.suffix_cons ..⟩
  exact absurd hclose (by decide)

end ScrollController

end Windowing
