import Windowing.Decimal.Style
import Windowing.SettingError
import Windowing.Step
import Windowing.Text.Record
import Windowing.Timing.Clock

/-!
# Samplers

A sampler measures how a page performs: how long a region took to render, how many
frames per second are drawn, and how much memory is in use. It is started when the
region appears; the host then calls it back once when it is idle, which ends the
region's rendering time, and after that at every frame. Frames are counted in cycles of
a fixed length. The frame that completes a cycle closes it with a snapshot and opens the
next one.
-/

namespace Windowing

/-- What is known at the end of a cycle. -/
structure Snapshot where
  renderTime : Nat
  /-- Bytes in use, zero if there is no counter. -/
  memoryUsage : Nat
  /-- Frames per second over the cycle. -/
  frameRate : Float

def Snapshot.describe (s : Snapshot) : String :=
  Text.record "MetricsSnapshot"
    [("render_time_ms", toString s.renderTime), ("memory_usage", toString s.memoryUsage),
      ("frame_rate", NumberStyle.record.write s.frameRate)]
    false

/-- A memory counter, as the answers it gives one after the other. A host without a
counter answers `none` every time. -/
structure MemoryProbe where
  answers : Nat → Option Nat
  /-- How often it has been asked. -/
  asked : Nat := 0

namespace MemoryProbe

/-- The probe of a host that cannot tell. -/
def absent : MemoryProbe := { answers := fun _ => none }

def read (p : MemoryProbe) : Option Nat := p.answers p.asked

def next (p : MemoryProbe) : MemoryProbe := { p with asked := p.asked + 1 }

end MemoryProbe

/-- Whether the host can run work when it is idle. -/
inductive IdleSupport where
  | available
  | unavailable
  deriving DecidableEq

/-- Hosts are taken to have idle time unless they say otherwise. -/
instance : Inhabited IdleSupport := ⟨.available⟩

/-- How the host is to call back. -/
inductive Schedule where
  /-- When it is idle. -/
  | idle
  /-- As its next piece of work. -/
  | macrotask
  deriving DecidableEq

inductive SamplerPhase where
  | stopped
  /-- Waiting to be called back. -/
  | scheduled (regionStart : Nat)
  /-- Counting the frames of a cycle. -/
  | sampling (cycleStart frames : Nat)
  | disposed
  deriving DecidableEq

def SamplerPhase.describe : SamplerPhase → String
  | stopped => "Stopped"
  | scheduled regionStart =>
    Text.record "Scheduled" [("region_start_ms", toString regionStart)] false
  | sampling cycleStart frames =>
    Text.record "Sampling"
      [("cycle_start_ms", toString cycleStart), ("frames", toString frames)] false
  | disposed => "Disposed"

structure Sampler (ι : Type) where
  /-- Length of a cycle in milliseconds. -/
  cycleLength : Nat
  idle : IdleSupport
  probe : MemoryProbe
  /-- Told of each snapshot. -/
  listener : Option ι := none
  phase : SamplerPhase := .stopped
  renderTime : Nat := 0
  latest : Option Snapshot := none

/-- What a sampler does to the outside. -/
inductive SamplerEvent (ι : Type) where
  /-- The memory counter is read. -/
  | probed
  | reported (call : Call ι Snapshot)

namespace Sampler

variable {ι ρ : Type}

/-- The length of a cycle unless another is chosen. -/
def defaultCycleLength : Nat := 1000

/-- A sampler that is not started yet. A cycle without length would divide by zero. -/
def create (cycleLength : Nat) (idle : IdleSupport) (probe : MemoryProbe)
    (listener : Option ι) : Except SettingError (Sampler ι) :=
  if cycleLength = 0 then .error .zeroSamplingWindow
  else .ok { cycleLength, idle, probe, listener }

/-- How the host is to call back after a start. -/
def schedule (s : Sampler ι) : Schedule :=
  match s.idle with
  | .available => .idle
  | .unavailable => .macrotask

def isSampling (s : Sampler ι) : Bool :=
  match s.phase with
  | .sampling .. => true
  | _ => false

def isDisposed (s : Sampler ι) : Bool := s.phase = .disposed

/-- The region appears. Answers how to call back, or nothing once the sampler is
disposed of. -/
def start (s : Sampler ι) (now : Nat) : Sampler ι × Option Schedule :=
  if s.isDisposed then (s, none)
  else ({ s with phase := .scheduled now }, some s.schedule)

/-- The call back: the region is rendered, and the first cycle opens. -/
def runScheduled (s : Sampler ι) (now : Nat) : Sampler ι :=
  match s.phase with
  | .scheduled regionStart =>
    { s with renderTime := now - regionStart, phase := .sampling now 0 }
  | _ => s

/-- Sets the rendering time to that of a region measured otherwise. -/
def recordRenderTime (s : Sampler ι) (start stop : Nat) : Sampler ι :=
  if s.isDisposed then s else { s with renderTime := stop - start }

/-- Does a piece of work as the region, with the time it takes on the clock. -/
def measure (s : Sampler ι) (clock : Clock) (work : Clock → Clock × ρ) :
    Sampler ι × Clock × ρ :=
  let (after, result) := work clock
  (s.recordRenderTime clock.now after.now, after, result)

/-- Frames per second of a cycle. -/
def frameRate (frames elapsed : Nat) : Float :=
  Count.toFloat frames * 1000.0 / Count.toFloat elapsed

/-- What is known when a cycle of this many frames ends. -/
def snapshot (s : Sampler ι) (frames elapsed : Nat) : Snapshot where
  renderTime := s.renderTime
  memoryUsage := s.probe.read.getD 0
  frameRate := frameRate frames elapsed

/-- Counts a frame. If it completes a cycle, answers with the snapshot. -/
def frame (s : Sampler ι) (now : Nat) : Step (Sampler ι) (SamplerEvent ι) (Option Snapshot) :=
  match s.phase with
  | .sampling cycleStart frames =>
    let frames := Count.add frames 1
    let elapsed := now - cycleStart
    if elapsed < s.cycleLength then
      .quiet { s with phase := .sampling cycleStart frames } none
    else
      let snapshot := s.snapshot frames elapsed
      ⟨{ s with probe := s.probe.next, latest := some snapshot, phase := .sampling now 0 },
        .probed :: (Call.deliver s.listener snapshot).map .reported, some snapshot⟩
  | _ => .quiet s none

/-- Ends the sampler: no snapshot is made from now on. -/
def dispose (s : Sampler ι) : Sampler ι := { s with phase := .disposed }

/-! ## Requests -/

/-- What a sampler is asked to do. A region that is measured by a clock is one that
takes from the clock's time before to its time after. -/
inductive Request where
  | start (now : Nat)
  | runScheduled (now : Nat)
  | frame (now : Nat)
  | recordRenderTime (start stop : Nat)
  | dispose

/-- Handles a request and answers with the snapshot that was made, if one was. -/
def apply (s : Sampler ι) : Request → Step (Sampler ι) (SamplerEvent ι) (Option Snapshot)
  | .start now => .quiet (s.start now).1 none
  | .runScheduled now => .quiet (s.runScheduled now) none
  | .frame now => s.frame now
  | .recordRenderTime start stop => .quiet (s.recordRenderTime start stop) none
  | .dispose => .quiet s.dispose none

/-- The description of a sampler on a host without a memory counter. -/
def describe (s : Sampler ι) : String :=
  let idle := match s.idle with
    | .available => "Available"
    | .unavailable => "Unavailable"
  Text.record "SamplingMonitor"
    [("options",
        Text.record "SamplingOptions" [("sampling_window_ms", toString s.cycleLength)] false),
      ("idle", idle), ("probe", "NoMemoryProbe"), ("phase", s.phase.describe),
      ("render_time_ms", toString s.renderTime),
      ("latest", Text.option (s.latest.map Snapshot.describe))]
    true

end Sampler

end Windowing
