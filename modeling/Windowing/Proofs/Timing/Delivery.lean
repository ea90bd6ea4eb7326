import Windowing.Proofs.Calls
import Windowing.Proofs.Timing.Cycles

/-!
# What a sampler delivers, and when it stops

A snapshot goes four ways at once: it is the answer to the frame that completed the cycle, the
memory counter was read for it, the reporter is told of it, and it is kept as the latest one. What
an activity can do to any of these is said once (`perform_cases`): nothing, or all four by the same
snapshot. So over a run the answers tell everything else, whatever phases the sampler went through
meanwhile: what is kept (`Delivers`), and what was read and reported (`ReportsEach`).

Every phase but the last can be left, and each operation looks at the phase in a way of its own. But
all of them stop short at a sampler that is disposed of (`perform_of_disposed`), which therefore
stays as it is and answers every activity in a way that is known beforehand (`Activity.refusal`,
`run_of_disposed`). The work that is brought along to be measured is still done.
-/

namespace Windowing

namespace MemoryProbe

/-- What the next answers of the counter, so many of them, count as. -/
def readings (p : MemoryProbe) (count : Nat) : List Nat :=
  (List.range count).map fun j => (p.answers (p.asked + j)).getD 0

theorem readings_succ (p : MemoryProbe) (count : Nat) :
    p.readings (count + 1) = p.readings count ++ [(p.answers (p.asked + count)).getD 0] := by
  rw [readings, List.range_succ, List.map_append]
  rfl

end MemoryProbe

namespace Sampler

variable {ι ρ : Type} {s : Sampler ι} {listener : Option ι} {probe : MemoryProbe}

/-! ## Activities -/

/-- What a host does with a sampler. Work that is to be measured comes with its clock. -/
inductive Activity (ρ : Type) where
  | start (now : Nat)
  | runScheduled (now : Nat)
  | frame (now : Nat)
  | recordRenderTime (start stop : Nat)
  | measure (clock : Clock) (work : Clock → Clock × ρ)
  | dispose

/-- What the host gets back. -/
inductive Answer (ρ : Type) where
  | scheduled (how : Option Schedule)
  | framed (made : Option Snapshot)
  /-- The clock after the work, and what came of it. -/
  | measured (outcome : Clock × ρ)
  | done

def perform (s : Sampler ι) : Activity ρ → Step (Sampler ι) (SamplerEvent ι) (Answer ρ)
  | .start now => .quiet (s.start now).1 (.scheduled (s.start now).2)
  | .runScheduled now => .quiet (s.runScheduled now) .done
  | .frame now => (s.frame now).map .framed
  | .recordRenderTime start stop => .quiet (s.recordRenderTime start stop) .done
  | .measure clock work => .quiet (s.measure clock work).1 (.measured (s.measure clock work).2)
  | .dispose => .quiet s.dispose .done

def Answer.snapshot? : Answer ρ → Option Snapshot
  | .framed made => made
  | _ => none

/-- The snapshots among the answers, in order. -/
def snapshots (answers : List (Answer ρ)) : List Snapshot := answers.filterMap Answer.snapshot?

/-- For each of these snapshots, in their order, the memory counter was read once and then the
reporter called once, with the snapshot. Where no reporter is installed, only the counter was
read. -/
structure ReportsEach (listener : Option ι) (made : List Snapshot)
    (events : List (SamplerEvent ι)) : Prop where
  installed : ∀ name, listener = some name →
    events = made.flatMap fun x => [.probed, .reported ⟨name, x⟩]
  absent : listener = none → events = made.map fun _ => .probed

theorem ReportsEach.append {made made' : List Snapshot} {events events' : List (SamplerEvent ι)}
    (h : ReportsEach listener made events) (h' : ReportsEach listener made' events') :
    ReportsEach listener (made ++ made') (events ++ events') where
  installed := by
    intro name hname
    rw [h.installed name hname, h'.installed name hname, List.flatMap_append]
  absent := by
    intro hnone
    rw [h.absent hnone, h'.absent hnone, List.map_append]

theorem reportsEach_nil (listener : Option ι) : ReportsEach listener [] [] :=
  ⟨fun _ _ => rfl, fun _ => rfl⟩

/-- What is delivered to the reporter is one call of it. -/
theorem reportsEach_deliver (listener : Option ι) (x : Snapshot) :
    ReportsEach listener [x] (.probed :: (Call.deliver listener x).map .reported) where
  installed := by
    intro name hname
    rw [(Call.forEach_deliver listener x).installed name hname]
    rfl
  absent := by
    intro hnone
    rw [(Call.forEach_deliver listener x).absent hnone]
    rfl

theorem snapshots_singleton (answer : Answer ρ) : snapshots [answer] = answer.snapshot?.toList := by
  cases h : answer.snapshot? <;> simp [snapshots, h]

theorem snapshots_append (answers answers' : List (Answer ρ)) :
    snapshots (answers ++ answers') = snapshots answers ++ snapshots answers' :=
  List.filterMap_append

/-! ## One activity -/

theorem start_eq (s : Sampler ι) (now : Nat) : ∃ phase, (s.start now).1 = { s with phase } := by
  unfold start
  split
  · exact ⟨s.phase, rfl⟩
  · exact ⟨.scheduled now, rfl⟩

theorem runScheduled_eq (s : Sampler ι) (now : Nat) :
    ∃ phase renderTime, s.runScheduled now = { s with phase, renderTime } := by
  unfold runScheduled
  split
  · exact ⟨_, _, rfl⟩
  · exact ⟨s.phase, s.renderTime, rfl⟩

theorem recordRenderTime_eq (s : Sampler ι) (start stop : Nat) :
    ∃ renderTime, s.recordRenderTime start stop = { s with renderTime } := by
  unfold recordRenderTime
  split
  · exact ⟨s.renderTime, rfl⟩
  · exact ⟨_, rfl⟩

/-- An activity touches nothing but the phase and the rendering time, and nothing happens. Or it
is a frame that makes a snapshot, with what the memory counter says. -/
theorem perform_cases (s : Sampler ι) (a : Activity ρ) :
    (∃ phase renderTime, (s.perform a).state = { s with phase, renderTime }
        ∧ (s.perform a).events = [] ∧ (s.perform a).result.snapshot? = none)
      ∨ ∃ now x, a = .frame now ∧ (s.perform a).result = .framed (some x)
        ∧ x.memoryUsage = s.probe.read.getD 0
        ∧ (s.perform a).state
          = { s with probe := s.probe.next, latest := some x, phase := .sampling now 0 }
        ∧ (s.perform a).events = .probed :: (Call.deliver s.listener x).map .reported := by
  cases a with
  | start now =>
      obtain ⟨phase, hstate⟩ := s.start_eq now
      exact Or.inl ⟨phase, s.renderTime, hstate, rfl, rfl⟩
  | runScheduled now =>
      obtain ⟨phase, renderTime, hstate⟩ := s.runScheduled_eq now
      exact Or.inl ⟨phase, renderTime, hstate, rfl, rfl⟩
  | recordRenderTime start stop =>
      obtain ⟨renderTime, hstate⟩ := s.recordRenderTime_eq start stop
      exact Or.inl ⟨s.phase, renderTime, hstate, rfl, rfl⟩
  | measure clock work =>
      obtain ⟨renderTime, hstate⟩ := s.recordRenderTime_eq clock.now (work clock).1.now
      exact Or.inl ⟨s.phase, renderTime, hstate, rfl, rfl⟩
  | dispose => exact Or.inl ⟨.disposed, s.renderTime, rfl, rfl, rfl⟩
  | frame now =>
      cases hs : s.isSampling with
      | false =>
          rw [perform, frame_of_not_sampling hs]
          exact Or.inl ⟨s.phase, s.renderTime, rfl, rfl, rfl⟩
      | true =>
          obtain ⟨since, n, hphase⟩ := isSampling_iff.mp hs
          rw [perform, frame_of_sampling hphase]
          split
          · exact Or.inl ⟨_, s.renderTime, rfl, rfl, rfl⟩
          · exact Or.inr ⟨now, _, rfl, rfl, rfl, rfl, rfl⟩

theorem perform_listener (s : Sampler ι) (a : Activity ρ) :
    (s.perform a).state.listener = s.listener := by
  rcases s.perform_cases a with ⟨phase, renderTime, hstate, -⟩ | ⟨now, x, -, -, -, hstate, -⟩ <;>
    rw [hstate]

theorem perform_reports (s : Sampler ι) (a : Activity ρ) :
    ReportsEach s.listener (s.perform a).result.snapshot?.toList (s.perform a).events := by
  rcases s.perform_cases a with ⟨_, _, -, hevents, hnone⟩ | ⟨now, x, -, hresult, -, -, hevents⟩
  · rw [hevents, hnone]
    exact reportsEach_nil s.listener
  · rw [hevents, hresult]
    exact reportsEach_deliver s.listener x

theorem run_reports (h : s.listener = listener) (as : List (Activity ρ)) :
    ReportsEach listener (snapshots (Step.run perform s as).result)
      (Step.run perform s as).events := by
  induction as generalizing s with
  | nil => exact reportsEach_nil listener
  | cons a as ih =>
      have hstep := s.perform_reports a
      rw [h] at hstep
      have hsnapshots : snapshots (Step.run perform s (a :: as)).result
          = (s.perform a).result.snapshot?.toList
            ++ snapshots (Step.run perform (s.perform a).state as).result := by
        rw [← snapshots_singleton]
        exact snapshots_append [_] _
      rw [hsnapshots]
      exact hstep.append (ih ((s.perform_listener a).trans h))

/-! ## Disposal -/

/-- How a sampler that is disposed of answers. -/
def Activity.refusal : Activity ρ → Answer ρ
  | .start _ => .scheduled none
  | .frame _ => .framed none
  | .measure clock work => .measured (work clock)
  | .runScheduled _ | .recordRenderTime .. | .dispose => .done

theorem perform_of_disposed (h : s.phase = .disposed) (a : Activity ρ) :
    s.perform a = .quiet s a.refusal := by
  have hdisposed : s.isDisposed = true := by rw [isDisposed, h, decide_eq_true rfl]
  cases a with
  | start now =>
      rw [perform, start, if_pos hdisposed]
      rfl
  | runScheduled now =>
      rw [perform, runScheduled_of_not_scheduled (by simp [h])]
      rfl
  | frame now =>
      rw [perform, frame_of_not_sampling (by rw [isSampling, h])]
      rfl
  | recordRenderTime start stop =>
      rw [perform, recordRenderTime, if_pos hdisposed]
      rfl
  | measure clock work =>
      have hkept : s.recordRenderTime clock.now (work clock).1.now = s := if_pos hdisposed
      show Step.quiet (s.recordRenderTime clock.now (work clock).1.now) _ = _
      rw [hkept]
      rfl
  | dispose =>
      rw [perform, dispose, ← h]
      rfl

theorem run_of_disposed (h : s.phase = .disposed) (rest : List (Activity ρ)) :
    Step.run perform s rest = .quiet s (rest.map Activity.refusal) := by
  induction rest with
  | nil => rfl
  | cons a rest ih =>
      rw [Step.run, perform_of_disposed h]
      show Step.mk _ _ _ = Step.mk _ _ _
      simp only [Step.quiet_state, ih]
      rfl

/-- The run `t` from the state `s` leaves everything as it is that can be seen of a sampler, and
gets no more than refusals. -/
structure RefusedFrom (s : Sampler ι) (rest : List (Activity ρ))
    (t : Step (Sampler ι) (SamplerEvent ι) (List (Answer ρ))) : Prop where
  refused : t.result = rest.map Activity.refusal
  silent : t.events = []
  isDisposed : t.state.isDisposed = true
  isSampling : t.state.isSampling = false
  latest_eq : t.state.latest = s.latest
  renderTime_eq : t.state.renderTime = s.renderTime

theorem refusedFrom_dispose (s : Sampler ι) (rest : List (Activity ρ)) :
    RefusedFrom s rest (Step.run perform s.dispose rest) := by
  rw [run_of_disposed rfl]
  exact ⟨rfl, rfl, decide_eq_true rfl, rfl, rfl, rfl⟩

/-! ## Every run -/

/-- What the answers so far say of a sampler with this listener, to which this probe was given. -/
structure Delivers (listener : Option ι) (probe : MemoryProbe) (answers : List (Answer ρ))
    (s : Sampler ι) : Prop where
  listener_eq : s.listener = listener
  probe_eq : s.probe = { probe with asked := probe.asked + (snapshots answers).length }
  latest_eq : s.latest = (snapshots answers).getLast?
  memoryUsage_eq : (snapshots answers).map Snapshot.memoryUsage
    = probe.readings (snapshots answers).length

namespace Delivers

variable {answers : List (Answer ρ)}

theorem new {length : Nat} {idle : IdleSupport} (h : create length idle probe listener = .ok s) :
    Delivers listener probe ([] : List (Answer ρ)) s := by
  obtain ⟨-, rfl⟩ := of_create h
  exact ⟨rfl, rfl, rfl, rfl⟩

theorem step (h : Delivers listener probe answers s) (a : Activity ρ) :
    Delivers listener probe (answers ++ [(s.perform a).result]) (s.perform a).state := by
  rcases s.perform_cases a with
    ⟨phase, renderTime, hstate, -, hnone⟩ | ⟨now, x, -, hresult, hmemory, hstate, -⟩
  · have hsame : snapshots (answers ++ [(s.perform a).result]) = snapshots answers := by
      rw [snapshots_append, snapshots_singleton, hnone, Option.toList_none, List.append_nil]
    refine ⟨?_, ?_, ?_, ?_⟩
    · rw [hstate, h.listener_eq]
    · rw [hstate, hsame, h.probe_eq]
    · rw [hstate, hsame, h.latest_eq]
    · rw [hsame]
      exact h.memoryUsage_eq
  · have hone : snapshots (answers ++ [(s.perform a).result]) = snapshots answers ++ [x] := by
      rw [snapshots_append, snapshots_singleton, hresult]
      rfl
    refine ⟨?_, ?_, ?_, ?_⟩
    · rw [hstate, h.listener_eq]
    · rw [hstate, hone, List.length_append, h.probe_eq]
      rfl
    · rw [hstate, hone, List.getLast?_concat]
    · rw [hone, List.map_append, List.length_append, h.memoryUsage_eq, List.length_singleton,
        MemoryProbe.readings_succ, List.map_singleton, hmemory, h.probe_eq]
      rfl

theorem run (h : Delivers listener probe ([] : List (Answer ρ)) s) (as : List (Activity ρ)) :
    Delivers listener probe (Step.run perform s as).result
      (Step.run perform s as).state := by
  induction as using List.reverseRecOn with
  | nil => exact h
  | append_singleton as a ih =>
      rw [Step.run_append_state, Step.run_append_result]
      exact ih.step a

end Delivers

/-- What a run of activities of a new sampler comes to. -/
structure DeliversSnapshots (listener : Option ι) (probe : MemoryProbe) (as : List (Activity ρ))
    (t : Step (Sampler ι) (SamplerEvent ι) (List (Answer ρ))) : Prop where
  /-- Only frames are answered with snapshots. -/
  answered : ∀ (k : Nat) (r : Answer ρ), t.result[k]? = some r → r.snapshot?.isSome = true →
    ∃ now, as[k]? = some (.frame now)
  /-- The counter is read and the reporter is told once for each snapshot, of that one, and for
  nothing else: in the whole run, and in any activity that may follow. -/
  told : ReportsEach listener (snapshots t.result) t.events
  next_told : ∀ a : Activity ρ,
    ReportsEach listener (t.state.perform a).result.snapshot?.toList (t.state.perform a).events
  asked_eq : t.state.probe.asked = probe.asked + (snapshots t.result).length
  /-- A snapshot holds the reading that was made for it. -/
  memoryUsage_eq : (snapshots t.result).map Snapshot.memoryUsage
    = probe.readings (snapshots t.result).length
  latest_eq : t.state.latest = (snapshots t.result).getLast?
  /-- Once the sampler is disposed of, in whatever phase, it does nothing any more. -/
  final : ∀ rest : List (Activity ρ),
    RefusedFrom t.state rest (Step.run perform (t.state.perform (.dispose : Activity ρ)).state rest)

/-- Whatever is done with a new sampler, and whatever the clocks say meanwhile: the ways on which
snapshots are delivered never come apart, and disposal ends them all for good. -/
theorem delivers_in_step {length : Nat} {idle : IdleSupport}
    (h : create length idle probe listener = .ok s) (as : List (Activity ρ)) :
    DeliversSnapshots listener probe as (Step.run perform s as) := by
  have hnew := Delivers.new (ρ := ρ) h
  have hrun := hnew.run as
  refine ⟨?_, run_reports hnew.listener_eq as, ?_, ?_, hrun.memoryUsage_eq, hrun.latest_eq, ?_⟩
  · intro k r hr hsome
    obtain ⟨hlt, -⟩ := List.getElem?_eq_some_iff.mp hr
    rw [Step.length_run_result] at hlt
    have hk := List.getElem?_eq_getElem hlt
    rw [Step.run_result_getElem? perform s hk, Option.some_inj] at hr
    rcases perform_cases (Step.run perform s (as.take k)).state as[k] with
      ⟨_, _, -, -, hnone⟩ | ⟨now, x, hframe, -⟩
    · rw [← hr, hnone] at hsome
      cases hsome
    · exact ⟨now, hk.trans (congrArg some hframe)⟩
  · intro a
    rw [← hrun.listener_eq]
    exact perform_reports _ a
  · rw [hrun.probe_eq]
  · exact refusedFrom_dispose _

/-- Two phases with a snapshot each, the counter failing at the second one, and a clock that is set
back while work is measured. -/
theorem delivers_in_step_restarted :
    ∃ (s : Sampler Nat) (probe : MemoryProbe) (as : List (Activity Nat)),
      create 10 .unavailable probe (some 0) = .ok s
        ∧ probe.answers 0 = some 4096 ∧ probe.answers 1 = none
        ∧ as = [.start 3, .runScheduled 5, .frame 15, .start 2, .frame 9, .runScheduled 4,
          .measure ⟨30⟩ fun c => (c.set 20, 7), .frame 14]
        ∧ (Step.run perform s as).state.latest.map Snapshot.memoryUsage = some 0
        ∧ (Step.run perform s as).events.length = 4
        ∧ DeliversSnapshots (some 0) probe as (Step.run perform s as) := by
  have h : create 10 .unavailable { answers := fun n => if n = 0 then some 4096 else none } (some 0)
      = .ok (_ : Sampler Nat) := rfl
  exact ⟨_, _, _, h, rfl, rfl, rfl, rfl, rfl, delivers_in_step h _⟩

end Sampler

end Windowing
