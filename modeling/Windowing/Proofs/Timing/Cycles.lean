import Windowing.Proofs.Timing.Rate
import Windowing.Timing.Sampler

/-!
# Cycles tile a run

The log of a sampler tells when it samples: from the call back that a started region waits
for (`Awaits`) until the next start, or until the sampler is disposed of (`Samples`). What was
asked since the call back is cut into cycles at the frames that were answered (`Cut`). No
frame falls between two cycles or into both, so that the frames of a phase are those of its
cycles and of the cycle that is open.

The sampler keeps the time when the open cycle began and a number of frames. `Follows` says
that they are those of the log, `Follows.step` that every request leaves them so, and
`cycles_tile_phases` reads the result off: which frame closes a cycle, and with what.
-/

namespace Windowing

/-! ## Where a list splits -/

/-- The list is `before`, `e` and `after`, and all of `after` is as `P` says. -/
def SplitsAt {α : Type} (P : α → Prop) (es before : List α) (e : α) (after : List α) : Prop :=
  es = before ++ e :: after ∧ ∀ a ∈ after, P a

theorem splitsAt_concat {α : Type} {P : α → Prop} {es before after : List α} {e x : α} :
    SplitsAt P (es ++ [x]) before e after
      ↔ (before = es ∧ e = x ∧ after = [])
        ∨ ∃ init, after = init ++ [x] ∧ P x ∧ SplitsAt P es before e init := by
  constructor
  · rintro ⟨heq, hP⟩
    rcases List.eq_nil_or_concat' after with rfl | ⟨init, y, rfl⟩
    · obtain ⟨rfl, hx⟩ := List.append_inj' heq rfl
      exact Or.inl ⟨rfl, (List.singleton_inj.mp hx).symm, rfl⟩
    · rw [← List.cons_append, ← List.append_assoc] at heq
      obtain ⟨rfl, hx⟩ := List.append_inj' heq rfl
      obtain rfl := List.singleton_inj.mp hx
      refine Or.inr ⟨init, rfl, hP _ (by simp), rfl, ?_⟩
      intro a ha
      exact hP a (List.mem_append_left _ ha)
  · rintro (⟨rfl, rfl, rfl⟩ | ⟨init, rfl, hx, rfl, hP⟩)
    · exact ⟨rfl, by simp⟩
    · refine ⟨by simp, ?_⟩
      intro a ha
      rcases List.mem_append.mp ha with ha | ha
      · exact hP a ha
      · rwa [List.mem_singleton.mp ha]

namespace Sampler

/-- A request with its answer. -/
abbrev Entry : Type := Request × Option Snapshot

variable {ι : Type} {s s' : Sampler ι} {es body rest : List Entry} {e : Entry}
  {length start opened since : Nat}

/-! ## Phases by the log -/

def Request.isStart : Request → Bool
  | .start _ => true
  | _ => false

def Request.isCallBack : Request → Bool
  | .runScheduled _ => true
  | _ => false

def Request.isFrame : Request → Bool
  | .frame _ => true
  | _ => false

/-- The sampler has not been disposed of. -/
def Live (es : List Entry) : Prop := .dispose ∉ es.map Prod.fst

/-- The region that appeared at `start` waits: there was neither a call back since then nor
another start. -/
def Awaits (es : List Entry) (start : Nat) : Prop :=
  Live es ∧ ∃ before e after,
    SplitsAt (fun e => e.1.isStart = false ∧ e.1.isCallBack = false) es before e after
      ∧ e.1 = .start start

/-- The region that appeared at `start` was called back at `opened`, and `body` is what was
asked since then, without another start. A call back that no region waits for counts
for nothing. -/
def Samples (es : List Entry) (start opened : Nat) (body : List Entry) : Prop :=
  Live es ∧ ∃ before e, SplitsAt (fun e => e.1.isStart = false) es before e body
    ∧ e.1 = .runScheduled opened ∧ Awaits before start

theorem live_concat : Live (es ++ [e]) ↔ Live es ∧ e.1 ≠ .dispose := by
  simp [Live, eq_comm]

theorem awaits_concat : Awaits (es ++ [e]) start
    ↔ (Live es ∧ e.1 = .start start)
      ∨ (Awaits es start ∧ e.1 ≠ .dispose ∧ e.1.isStart = false ∧ e.1.isCallBack = false) := by
  simp only [Awaits, live_concat, splitsAt_concat]
  constructor
  · rintro ⟨⟨hlive, he⟩, before, f, after, ⟨rfl, rfl, rfl⟩ | ⟨init, -, hkind, hsplit⟩, hf⟩
    · exact Or.inl ⟨hlive, hf⟩
    · exact Or.inr ⟨⟨hlive, before, f, init, hsplit, hf⟩, he, hkind⟩
  · rintro (⟨hlive, he⟩ | ⟨⟨hlive, before, f, init, hsplit, hf⟩, he, hkind⟩)
    · exact ⟨⟨hlive, by simp [he]⟩, es, e, [], Or.inl ⟨rfl, rfl, rfl⟩, he⟩
    · exact ⟨⟨hlive, he⟩, before, f, _, Or.inr ⟨init, rfl, hkind, hsplit⟩, hf⟩

theorem samples_concat : Samples (es ++ [e]) start opened body
    ↔ (body = [] ∧ e.1 = .runScheduled opened ∧ Awaits es start)
      ∨ ∃ init, body = init ++ [e] ∧ e.1 ≠ .dispose ∧ e.1.isStart = false
        ∧ Samples es start opened init := by
  simp only [Samples, live_concat, splitsAt_concat]
  constructor
  · rintro ⟨⟨hlive, he⟩, before, f, ⟨rfl, rfl, rfl⟩ | ⟨init, rfl, hkind, hsplit⟩, hf, hawaits⟩
    · exact Or.inl ⟨rfl, hf, hawaits⟩
    · exact Or.inr ⟨init, rfl, he, hkind, hlive, before, f, hsplit, hf, hawaits⟩
  · rintro (⟨rfl, he, hawaits⟩ | ⟨init, rfl, he, hkind, hlive, before, f, hsplit, hf, hawaits⟩)
    · exact ⟨⟨hawaits.1, by simp [he]⟩, es, e, Or.inl ⟨rfl, rfl, rfl⟩, he, hawaits⟩
    · exact ⟨⟨hlive, he⟩, before, f, Or.inr ⟨init, rfl, hkind, hsplit⟩, hf, hawaits⟩

theorem not_samples_of_start (h : e.1.isStart = true) :
    ¬ Samples (es ++ [e]) start opened body := by
  rw [samples_concat]
  rintro (⟨-, he, -⟩ | ⟨-, -, -, hkind, -⟩)
  · rw [he] at h
    cases h
  · rw [h] at hkind
    cases hkind

/-! ## Cycles by the log -/

def framesIn (es : List Entry) : Nat := es.countP (·.1.isFrame)

/-- A cycle: when it opened, what was asked until it closed, and the frame that closed it. -/
structure Cycle where
  opened : Nat
  entries : List Entry
  closed : Nat
  snapshot : Snapshot

namespace Cycle

/-- All that was asked in the cycle, the closing frame included. -/
def log (c : Cycle) : List Entry := c.entries ++ [(.frame c.closed, some c.snapshot)]

def frames (c : Cycle) : Nat := framesIn c.log

/-- What a cycle of the given length has to be: only its last frame was answered, it lasted
for its length, and the rate is that of all its frames over the time that it took. -/
structure Sound (length : Nat) (c : Cycle) : Prop where
  unanswered : ∀ e ∈ c.entries, e.2 = none
  lasts : c.opened + length ≤ c.closed
  rate_eq : c.snapshot.frameRate
    = Count.toFloat (min c.frames Count.limit) * 1000.0 / Count.toFloat (c.closed - c.opened)

end Cycle

/-- The first cycle opens at `opened`, each of the others when the one before it closes, and
after the last one a cycle is open since `since`. -/
def Joined : Nat → List Cycle → Nat → Prop
  | opened, [], since => opened = since
  | opened, c :: cs, since => c.opened = opened ∧ Joined c.closed cs since

/-- What was asked since `opened` is what was asked in the cycles and, since `since`, in one
that is still open. -/
structure Cut (length opened : Nat) (body : List Entry) (cycles : List Cycle) (since : Nat)
    (rest : List Entry) : Prop where
  body_eq : body = cycles.flatMap Cycle.log ++ rest
  unanswered : ∀ e ∈ rest, e.2 = none
  joined : Joined opened cycles since
  sound : ∀ c ∈ cycles, c.Sound length

variable {cycles : List Cycle}

theorem framesIn_append (es es' : List Entry) :
    framesIn (es ++ es') = framesIn es + framesIn es' := List.countP_append

theorem Joined.concat {c : Cycle} : ∀ {opened : Nat} {cycles : List Cycle},
    Joined opened cycles c.opened → Joined opened (cycles ++ [c]) c.closed
  | _, [], h => ⟨h.symm, rfl⟩
  | _, _ :: _, ⟨hopened, h⟩ => ⟨hopened, h.concat⟩

theorem Joined.spaced : ∀ {opened : Nat} {cycles : List Cycle},
    Joined opened cycles since → (∀ c ∈ cycles, c.Sound length) →
      Spaced length (opened :: cycles.map Cycle.closed)
  | _, [], _, _ => List.pairwise_singleton ..
  | _, c :: cycles, ⟨hopened, h⟩, hsound => by
      have ih := h.spaced fun c hc => hsound c (List.mem_cons_of_mem _ hc)
      have hlasts := (hsound c (List.mem_cons_self ..)).lasts
      refine List.pairwise_cons.mpr ⟨?_, ih⟩
      intro t ht
      rcases List.mem_cons.mp ht with rfl | ht
      · omega
      · have := (List.pairwise_cons.mp ih).1 t ht
        omega

namespace Cut

theorem nil (length opened : Nat) : Cut length opened [] [] opened [] :=
  ⟨rfl, by simp, rfl, by simp⟩

theorem keep (h : Cut length opened body cycles since rest) (he : e.2 = none) :
    Cut length opened (body ++ [e]) cycles since (rest ++ [e]) := by
  refine ⟨by rw [h.body_eq, List.append_assoc], ?_, h.joined, h.sound⟩
  intro f hf
  rcases List.mem_append.mp hf with hf | hf
  · exact h.unanswered f hf
  · rwa [List.mem_singleton.mp hf]

theorem close (h : Cut length opened body cycles since rest) {now : Nat} {snapshot : Snapshot}
    (hnow : since + length ≤ now)
    (hrate : snapshot.frameRate
      = Count.toFloat (min (framesIn rest + 1) Count.limit) * 1000.0
        / Count.toFloat (now - since)) :
    Cut length opened (body ++ [(.frame now, some snapshot)])
      (cycles ++ [⟨since, rest, now, snapshot⟩]) now [] := by
  refine ⟨?_, by simp, Joined.concat (c := ⟨since, rest, now, snapshot⟩) h.joined, ?_⟩
  · simp [h.body_eq, Cycle.log]
  · intro c hc
    rcases List.mem_append.mp hc with hc | hc
    · exact h.sound c hc
    · rw [List.mem_singleton.mp hc]
      refine ⟨h.unanswered, hnow, ?_⟩
      rw [hrate, Cycle.frames, Cycle.log, framesIn_append]
      rfl

/-- No frame is lost and none is counted twice. -/
theorem framesIn_eq (h : Cut length opened body cycles since rest) :
    framesIn body = (cycles.map Cycle.frames).sum + framesIn rest := by
  rw [h.body_eq, framesIn_append, framesIn, List.countP_flatMap]
  rfl

end Cut

/-- How long a region took that was measured otherwise. -/
def recorded? : Entry → Option Nat
  | (.recordRenderTime start stop, _) => some (stop - start)
  | _ => none

/-- The rendering time that was set last: by the call back at `opened`, unless another region
was measured since. -/
def renderTimeOf (start opened : Nat) (body : List Entry) : Nat :=
  (body.filterMap recorded?).getLast?.getD (opened - start)

theorem renderTimeOf_concat (start opened : Nat) (body : List Entry) (e : Entry) :
    renderTimeOf start opened (body ++ [e])
      = (recorded? e).getD (renderTimeOf start opened body) := by
  rw [renderTimeOf, List.filterMap_append, List.getLast?_append]
  cases h : recorded? e <;> simp [h, renderTimeOf]

/-! ## Single requests -/

theorem of_create {idle : IdleSupport} {probe : MemoryProbe} {listener : Option ι}
    (h : create length idle probe listener = .ok s) :
    0 < length ∧ s = { cycleLength := length, idle, probe, listener } := by
  unfold create at h
  split at h
  · cases h
  · cases h
    exact ⟨by omega, rfl⟩

theorem isSampling_iff :
    s.isSampling = true ↔ ∃ since frames, s.phase = .sampling since frames := by
  rw [isSampling]
  cases s.phase <;> simp

theorem frame_of_sampling {n : Nat} (h : s.phase = .sampling since n) (now : Nat) :
    s.frame now =
      if now - since < s.cycleLength then
        .quiet { s with phase := .sampling since (Count.add n 1) } none
      else
        ⟨{ s with
            probe := s.probe.next
            latest := some (s.snapshot (Count.add n 1) (now - since))
            phase := .sampling now 0 },
          .probed :: (Call.deliver s.listener (s.snapshot (Count.add n 1) (now - since))).map
            .reported,
          some (s.snapshot (Count.add n 1) (now - since))⟩ := by
  rw [frame, h]

theorem frame_of_not_sampling (h : s.isSampling = false) (now : Nat) :
    s.frame now = .quiet s none := by
  unfold frame
  split
  · rename_i since n hphase
    rw [isSampling_iff.mpr ⟨since, n, hphase⟩] at h
    cases h
  · rfl

theorem runScheduled_of_scheduled (h : s.phase = .scheduled start) (now : Nat) :
    s.runScheduled now = { s with renderTime := now - start, phase := .sampling now 0 } := by
  rw [runScheduled, h]

theorem runScheduled_of_not_scheduled (h : ∀ start, s.phase ≠ .scheduled start) (now : Nat) :
    s.runScheduled now = s := by
  unfold runScheduled
  split
  · rename_i start heq
    exact absurd heq (h start)
  · rfl

theorem recordRenderTime_kept (s : Sampler ι) (start stop : Nat) :
    (s.recordRenderTime start stop).cycleLength = s.cycleLength
      ∧ (s.recordRenderTime start stop).phase = s.phase := by
  unfold recordRenderTime
  split <;> exact ⟨rfl, rfl⟩

/-! ## The state and the log -/

/-- What the state of a sampler that samples has to do with what was asked since. -/
structure Tiled (length start opened : Nat) (body : List Entry) (cycles : List Cycle)
    (since : Nat) (rest : List Entry) (s : Sampler ι) : Prop where
  cut : Cut length opened body cycles since rest
  phase_eq : s.phase = .sampling since (min (framesIn rest) Count.limit)
  renderTime_eq : s.renderTime = renderTimeOf start opened body

structure Follows (length : Nat) (es : List Entry) (s : Sampler ι) : Prop where
  length_eq : s.cycleLength = length
  disposed_iff : s.phase = .disposed ↔ ¬ Live es
  awaits_iff : ∀ start, s.phase = .scheduled start ↔ Awaits es start
  sampling : s.isSampling = true → ∃ start opened body, Samples es start opened body
  samples : ∀ start opened body, Samples es start opened body →
    ∃ cycles since rest, Tiled length start opened body cycles since rest s

/-- Counting one more frame, with the ceiling that counts have. -/
theorem count_succ (n : Nat) :
    Count.add (min n Count.limit) 1 = min (n + 1) Count.limit := by
  simp only [Count.add]
  omega

namespace Tiled

theorem isSampling (h : Tiled length start opened body cycles since rest s) :
    s.isSampling = true := isSampling_iff.mpr ⟨_, _, h.phase_eq⟩

theorem keep (h : Tiled length start opened body cycles since rest s) (hphase : s'.phase = s.phase)
    (hrender : s'.renderTime = (recorded? e).getD s.renderTime) (hframe : e.1.isFrame = false)
    (hanswer : e.2 = none) :
    Tiled length start opened (body ++ [e]) cycles since (rest ++ [e]) s' := by
  refine ⟨h.cut.keep hanswer, ?_, ?_⟩
  · rw [hphase, h.phase_eq, framesIn_append]
    simp [framesIn, hframe]
  · rw [hrender, renderTimeOf_concat, h.renderTime_eq]

theorem frame_before (h : Tiled length start opened body cycles since rest s)
    (hlength : s.cycleLength = length) {now : Nat} (hpos : 0 < length)
    (hnow : now < since + length) :
    (s.frame now).result = none ∧ (s.frame now).state.cycleLength = length
      ∧ Tiled length start opened (body ++ [(.frame now, none)]) cycles since
        (rest ++ [(.frame now, none)]) (s.frame now).state := by
  rw [frame_of_sampling h.phase_eq, hlength, if_pos (by omega)]
  refine ⟨rfl, rfl, h.cut.keep rfl, ?_, ?_⟩
  · rw [Step.quiet_state, count_succ, framesIn_append]
    rfl
  · rw [renderTimeOf_concat]
    exact h.renderTime_eq

theorem frame_closing (h : Tiled length start opened body cycles since rest s)
    (hlength : s.cycleLength = length) {now : Nat} (hpos : 0 < length)
    (hnow : since + length ≤ now) :
    ∃ snapshot, (s.frame now).result = some snapshot
      ∧ snapshot.frameRate = Count.toFloat (min (framesIn rest + 1) Count.limit) * 1000.0
        / Count.toFloat (now - since)
      ∧ snapshot.renderTime = renderTimeOf start opened body
      ∧ (s.frame now).state.cycleLength = length
      ∧ Tiled length start opened (body ++ [(.frame now, some snapshot)])
        (cycles ++ [⟨since, rest, now, snapshot⟩]) now [] (s.frame now).state := by
  have hrate : (s.snapshot (min (framesIn rest + 1) Count.limit) (now - since)).frameRate
      = Count.toFloat (min (framesIn rest + 1) Count.limit) * 1000.0
        / Count.toFloat (now - since) := rfl
  rw [frame_of_sampling h.phase_eq, hlength, if_neg (by omega), count_succ]
  refine ⟨_, rfl, hrate, h.renderTime_eq, rfl, h.cut.close hnow hrate, rfl, ?_⟩
  · rw [renderTimeOf_concat]
    exact h.renderTime_eq

theorem frame (h : Tiled length start opened body cycles since rest s)
    (hlength : s.cycleLength = length) (hpos : 0 < length) (now : Nat) :
    (s.frame now).state.cycleLength = length ∧ ∃ cycles since rest,
      Tiled length start opened (body ++ [(.frame now, (s.frame now).result)]) cycles since rest
        (s.frame now).state := by
  by_cases hnow : since + length ≤ now
  · obtain ⟨snapshot, hresult, -, -, hkept, htiled⟩ := h.frame_closing hlength hpos hnow
    rw [hresult]
    exact ⟨hkept, _, _, _, htiled⟩
  · obtain ⟨hresult, hkept, htiled⟩ := h.frame_before hlength hpos (Nat.not_le.mp hnow)
    rw [hresult]
    exact ⟨hkept, _, _, _, htiled⟩

end Tiled

namespace Follows

theorem create {idle : IdleSupport} {probe : MemoryProbe} {listener : Option ι}
    (h : Sampler.create length idle probe listener = .ok s) : Follows length [] s := by
  obtain ⟨-, rfl⟩ := of_create h
  refine ⟨rfl, ?_, ?_, ?_, ?_⟩
  · simp [Live]
  · simp [Awaits, SplitsAt]
  · intro hs
    cases hs
  · simp [Samples, SplitsAt]

/-- A request that leaves the phase as it is while the sampler does not sample. -/
theorem keep (h : Follows length es s) (hs : s.isSampling = false)
    (hlength : s'.cycleLength = s.cycleLength) (hphase : s'.phase = s.phase)
    (hdispose : e.1 ≠ .dispose) (hstart : e.1.isStart = false)
    (hcall : e.1.isCallBack = true → ∀ start, s.phase ≠ .scheduled start) :
    Follows length (es ++ [e]) s' := by
  refine ⟨hlength.trans h.length_eq, ?_, ?_, ?_, ?_⟩
  · rw [hphase, h.disposed_iff, live_concat]
    simp [hdispose]
  · intro start
    rw [hphase, h.awaits_iff, awaits_concat]
    constructor
    · intro hawaits
      refine Or.inr ⟨hawaits, hdispose, hstart, ?_⟩
      rw [← Bool.not_eq_true]
      exact fun hc => hcall hc start ((h.awaits_iff start).mpr hawaits)
    · rintro (⟨-, he⟩ | ⟨hawaits, -⟩)
      · rw [he] at hstart
        cases hstart
      · exact hawaits
  · rw [isSampling, hphase]
    exact fun hs' => absurd hs' (by rw [← isSampling, hs]; exact Bool.false_ne_true)
  · intro start opened body hsamples
    rcases samples_concat.mp hsamples with ⟨-, he, hawaits⟩ | ⟨init, -, -, -, hinit⟩
    · exact absurd ((h.awaits_iff start).mpr hawaits) (hcall (by rw [he]; rfl) start)
    · obtain ⟨cycles, since, rest, htiled⟩ := h.samples _ _ _ hinit
      rw [htiled.isSampling] at hs
      cases hs

/-- A request after which the sampler goes on sampling. -/
theorem keep_sampling (h : Follows length es s) (hs : s.isSampling = true)
    (hlength : s'.cycleLength = s.cycleLength) (hs' : s'.isSampling = true)
    (hdispose : e.1 ≠ .dispose) (hstart : e.1.isStart = false)
    (htiled : ∀ start opened body cycles since rest,
      Tiled length start opened body cycles since rest s →
        ∃ cycles since rest, Tiled length start opened (body ++ [e]) cycles since rest s') :
    Follows length (es ++ [e]) s' := by
  obtain ⟨since, n, hphase⟩ := isSampling_iff.mp hs
  obtain ⟨since', n', hphase'⟩ := isSampling_iff.mp hs'
  have hnot : ∀ start, ¬ Awaits es start := by
    intro start hawaits
    rw [← h.awaits_iff, hphase] at hawaits
    cases hawaits
  refine ⟨hlength.trans h.length_eq, ?_, ?_, ?_, ?_⟩
  · have hlive : Live es := by
      by_contra hlive
      rw [← h.disposed_iff, hphase] at hlive
      cases hlive
    simp [hphase', live_concat, hlive, hdispose]
  · intro start
    have hne : e.1 ≠ .start start := fun he => by
      rw [he] at hstart
      cases hstart
    simp [hphase', awaits_concat, hnot, hne]
  · intro _
    obtain ⟨start, opened, body, hsamples⟩ := h.sampling hs
    exact ⟨start, opened, _, samples_concat.mpr (Or.inr ⟨body, rfl, hdispose, hstart, hsamples⟩)⟩
  · intro start opened body hsamples
    rcases samples_concat.mp hsamples with ⟨-, -, hawaits⟩ | ⟨init, rfl, -, -, hinit⟩
    · exact absurd hawaits (hnot start)
    · obtain ⟨cycles, since, rest, ht⟩ := h.samples _ _ _ hinit
      exact htiled _ _ _ _ _ _ ht

theorem open_phase (h : Follows length es s) (hphase : s.phase = .scheduled start) (opened : Nat) :
    Follows length (es ++ [(.runScheduled opened, none)]) (s.runScheduled opened) := by
  have hawaits := (h.awaits_iff start).mp hphase
  rw [runScheduled_of_scheduled hphase]
  refine ⟨h.length_eq, ?_, ?_, ?_, ?_⟩
  · simp [live_concat, hawaits.1]
  · intro start
    simp [awaits_concat, Request.isCallBack]
  · intro _
    exact ⟨start, opened, [], samples_concat.mpr (Or.inl ⟨rfl, rfl, hawaits⟩)⟩
  · intro start' opened' body hsamples
    rcases samples_concat.mp hsamples with ⟨rfl, heq, hawaits'⟩ | ⟨init, -, -, -, hinit⟩
    · cases heq
      obtain rfl : start = start' := by
        have := (h.awaits_iff start').mpr hawaits'
        rw [hphase] at this
        cases this
        rfl
      exact ⟨[], opened, [], Cut.nil .., rfl, rfl⟩
    · -- Before the call back nothing sampled.
      obtain ⟨cycles, since, rest, htiled⟩ := h.samples _ _ _ hinit
      have := htiled.phase_eq
      rw [hphase] at this
      cases this

theorem restart (h : Follows length es s) (now : Nat) :
    Follows length (es ++ [(.start now, none)]) (s.start now).1 := by
  have hnot : ∀ start opened body, ¬ Samples (es ++ [(.start now, none)]) start opened body :=
    fun _ _ _ => not_samples_of_start rfl
  by_cases hlive : Live es
  · have hphase : s.isDisposed = false := by
      rw [isDisposed, decide_eq_false_iff_not, h.disposed_iff]
      exact not_not.mpr hlive
    rw [Sampler.start, hphase, if_neg Bool.false_ne_true]
    refine ⟨h.length_eq, ?_, ?_, ?_, ?_⟩
    · simp [live_concat, hlive]
    · intro start
      simp [awaits_concat, hlive, Request.isStart]
    · intro hs
      cases hs
    · intro start opened body hsamples
      exact absurd hsamples (hnot start opened body)
  · have hphase : s.phase = .disposed := h.disposed_iff.mpr hlive
    rw [Sampler.start, isDisposed, hphase, if_pos (by simp)]
    refine ⟨h.length_eq, ?_, ?_, ?_, ?_⟩
    · simp [hphase, live_concat, hlive]
    · intro start
      simp [hphase, Awaits, live_concat, hlive]
    · intro hs
      rw [isSampling, hphase] at hs
      cases hs
    · intro start opened body hsamples
      exact absurd hsamples (hnot start opened body)

theorem dispose (h : Follows length es s) :
    Follows length (es ++ [(.dispose, none)]) s.dispose := by
  have hlive : ¬ Live (es ++ [(.dispose, none)]) := by simp [live_concat]
  refine ⟨h.length_eq, ?_, ?_, ?_, ?_⟩
  · simp [Sampler.dispose, hlive]
  · intro start
    simp [Sampler.dispose, Awaits, hlive]
  · intro hs
    cases hs
  · intro start opened body hsamples
    exact absurd hsamples.1 hlive

theorem frame (h : Follows length es s) (hpos : 0 < length) (now : Nat) :
    Follows length (es ++ [(.frame now, (s.frame now).result)]) (s.frame now).state := by
  cases hs : s.isSampling with
  | false =>
      rw [frame_of_not_sampling hs]
      exact h.keep hs rfl rfl (by simp) rfl (by simp [Request.isCallBack])
  | true =>
      obtain ⟨start, opened, body, hsamples⟩ := h.sampling hs
      obtain ⟨cycles, since, rest, htiled⟩ := h.samples _ _ _ hsamples
      obtain ⟨hkept, _, _, _, htiled'⟩ := htiled.frame h.length_eq hpos now
      refine h.keep_sampling hs (hkept.trans h.length_eq.symm) htiled'.isSampling (by simp) rfl ?_
      intro start opened body cycles since rest htiled
      exact (htiled.frame h.length_eq hpos now).2

theorem step (h : Follows length es s) (hpos : 0 < length) (r : Request) :
    Follows length (es ++ [(r, (s.apply r).result)]) (s.apply r).state := by
  cases r with
  | start now => exact h.restart now
  | dispose => exact h.dispose
  | frame now => exact h.frame hpos now
  | runScheduled now =>
      show Follows length _ (s.runScheduled now)
      by_cases hphase : ∃ start, s.phase = .scheduled start
      · obtain ⟨start, hphase⟩ := hphase
        exact h.open_phase hphase now
      · push Not at hphase
        rw [runScheduled_of_not_scheduled hphase]
        cases hs : s.isSampling with
        | false => exact h.keep hs rfl rfl (by simp) rfl fun _ => hphase
        | true =>
            refine h.keep_sampling hs rfl hs (by simp) rfl ?_
            intro start opened body cycles since rest htiled
            exact ⟨cycles, since, _, htiled.keep rfl rfl rfl rfl⟩
  | recordRenderTime start stop =>
      show Follows length _ (s.recordRenderTime start stop)
      obtain ⟨hlength, hphase⟩ := recordRenderTime_kept s start stop
      cases hs : s.isSampling with
      | false => exact h.keep hs hlength hphase (by simp) rfl (by simp [Request.isCallBack])
      | true =>
          refine h.keep_sampling hs hlength (by rw [isSampling, hphase, ← isSampling, hs]) (by simp)
            rfl ?_
          intro start' opened body cycles since rest htiled
          refine ⟨cycles, since, _, htiled.keep hphase ?_ rfl rfl⟩
          have hlive : s.isDisposed = false := by
            rw [isDisposed, htiled.phase_eq]
            rfl
          rw [Sampler.recordRenderTime, hlive, if_neg Bool.false_ne_true]
          rfl

theorem run (h : Follows length [] s) (hpos : 0 < length) (rs : List Request) :
    Follows length (Step.log apply s rs) (Step.run apply s rs).state := by
  induction rs using List.reverseRecOn with
  | nil => exact h
  | append_singleton rs r ih =>
      rw [Step.log_append, Step.run_append_state]
      exact ih.step hpos r

end Follows

/-! ## Runs -/

/-- What a frame at `now` does while a cycle is open since `since`, with `rest` asked in it. -/
structure CountsFrame (length start opened : Nat) (body : List Entry) (since : Nat)
    (rest : List Entry) (s : Sampler ι) (now : Nat) : Prop where
  closes_iff : (s.frame now).result.isSome = true ↔ since + length ≤ now
  closing : ∀ snapshot, (s.frame now).result = some snapshot →
    (0 < length ∧ length ≤ now - since)
      ∧ snapshot.frameRate = Count.toFloat (min (framesIn rest + 1) Count.limit) * 1000.0
        / Count.toFloat (now - since)
      ∧ snapshot.renderTime = renderTimeOf start opened body
      ∧ (s.frame now).state.phase = .sampling now 0

/-- What a sampler has to do with its log `es`. A phase that is over is the one of the log
up to its end. -/
structure TilesPhases (length : Nat) (es : List Entry) (s : Sampler ι) : Prop where
  sampling_iff : s.isSampling = true ↔ ∃ start opened body, Samples es start opened body
  /-- The frames of a phase are those of its cycles and of the open one, and the next frame
  either counts in the open cycle or closes it. -/
  tiled : ∀ start opened body, Samples es start opened body → ∃ cycles since rest,
    Cut length opened body cycles since rest
      ∧ s.phase = .sampling since (min (framesIn rest) Count.limit)
      ∧ framesIn body = (cycles.map Cycle.frames).sum + framesIn rest
      ∧ Spaced length (opened :: cycles.map Cycle.closed)
      ∧ ∀ now, CountsFrame length start opened body since rest s now

theorem Tiled.countsFrame (h : Tiled length start opened body cycles since rest s)
    (hlength : s.cycleLength = length) (hpos : 0 < length) (now : Nat) :
    CountsFrame length start opened body since rest s now := by
  by_cases hnow : since + length ≤ now
  · obtain ⟨snapshot, hresult, hrate, hrender, -, htiled⟩ := h.frame_closing hlength hpos hnow
    refine ⟨by simp [hresult, hnow], ?_⟩
    intro snapshot' hresult'
    obtain rfl := Option.some.inj (hresult.symm.trans hresult')
    exact ⟨⟨hpos, by omega⟩, hrate, hrender, htiled.phase_eq⟩
  · obtain ⟨hresult, -, -⟩ := h.frame_before hlength hpos (Nat.not_le.mp hnow)
    refine ⟨by simp [hresult, hnow], ?_⟩
    intro snapshot hresult'
    rw [hresult] at hresult'
    cases hresult'

/-- Whatever a new sampler is asked, and whatever the clock says meanwhile: its cycles follow
one another without gap or overlap, and each snapshot counts the frames of one of them. -/
theorem cycles_tile_phases {idle : IdleSupport} {probe : MemoryProbe} {listener : Option ι}
    (h : create length idle probe listener = .ok s) (rs : List Request) :
    TilesPhases length (Step.log apply s rs) (Step.run apply s rs).state := by
  obtain ⟨hpos, -⟩ := of_create h
  have hrun := (Follows.create h).run hpos rs
  refine ⟨⟨hrun.sampling, ?_⟩, ?_⟩
  · rintro ⟨start, opened, body, hsamples⟩
    obtain ⟨cycles, since, rest, htiled⟩ := hrun.samples _ _ _ hsamples
    exact htiled.isSampling
  · intro start opened body hsamples
    obtain ⟨cycles, since, rest, htiled⟩ := hrun.samples _ _ _ hsamples
    exact ⟨cycles, since, rest, htiled.cut, htiled.phase_eq, htiled.cut.framesIn_eq,
      htiled.cut.joined.spaced htiled.cut.sound, htiled.countsFrame hrun.length_eq hpos⟩

theorem cycles_tile_phases_backwards :
    ∃ (s : Sampler Nat) (rs : List Request), create 10 .unavailable .absent (some 0) = .ok s
      ∧ rs = [.start 3, .frame 4, .runScheduled 5, .frame 2, .runScheduled 6, .frame 15,
        .recordRenderTime 0 7, .frame 14]
      ∧ (Step.run apply s rs).state.phase = .sampling 15 1
      ∧ TilesPhases 10 (Step.log apply s rs) (Step.run apply s rs).state :=
  ⟨_, _, rfl, rfl, rfl, cycles_tile_phases rfl _⟩

end Sampler

end Windowing
