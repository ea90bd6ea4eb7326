import Windowing.SettingError
import Windowing.Step
import Windowing.Text.Record
import Windowing.Visibility.Sighting

/-!
# Visibility observers

An observer watches one region and acts once, the first time that enough of it is in
view. Then it is done, and so it is when it is disconnected before. On hosts that cannot
report intersections a region counts as visible as soon as it is observed.
-/

namespace Windowing

structure VisibilitySettings (ι : Type) where
  /-- The part of the region, from zero to one, that has to be visible. -/
  threshold : Float32 := 0.1
  /-- How far beyond the viewport a region counts as visible; negative values
  shrink it. -/
  triggerMargin : Float := 50.0
  /-- Told when the region becomes visible. -/
  listener : Option ι := none

namespace VisibilitySettings

variable {ι : Type}

/-- When both numbers are wrong, the threshold is reported. -/
def check (s : VisibilitySettings ι) : Except SettingError Unit :=
  if ¬ (0.0 ≤ s.threshold ∧ s.threshold ≤ 1.0) then
    .error (.threshold s.threshold)
  else if s.triggerMargin.isFinite = false then
    .error (.triggerMargin s.triggerMargin)
  else
    .ok ()

def describe (s : VisibilitySettings ι) : String :=
  Text.record "VisibilityOptions"
    [("threshold", NumberStyle.record.writeSingle s.threshold),
      ("trigger_margin", NumberStyle.record.write s.triggerMargin)]
    true

end VisibilitySettings

/-- Whether the host reports intersections. -/
inductive IntersectionSupport where
  | native
  | unsupported
  deriving DecidableEq

/-- Hosts are taken to report intersections unless they say otherwise. -/
instance : Inhabited IntersectionSupport := ⟨.native⟩

/-- How far an observer has got. The last two are final. -/
inductive ObserverPhase where
  | unobserved
  | observing
  /-- The region became visible. -/
  | triggered
  /-- The observer was disconnected before the region became visible. -/
  | disconnected
  deriving DecidableEq

structure Observer (ι : Type) where
  settings : VisibilitySettings ι
  support : IntersectionSupport
  phase : ObserverPhase := .unobserved
  /-- Whether the observer was disconnected, before the region became visible or after. -/
  disposed : Bool := false

/-- What an observer is told. -/
inductive Observation where
  | observe
  | sight (sighting : Sighting)
  | geometry (region viewport : Rect)
  | disconnect

namespace Observer

variable {ι : Type}

def create (settings : VisibilitySettings ι) (support : IntersectionSupport) :
    Except SettingError (Observer ι) :=
  settings.check.map fun _ => { settings, support }

def isObserving (o : Observer ι) : Bool := o.phase = .observing

/-- Whether the region has become visible. -/
def isMaterialized (o : Observer ι) : Bool := o.phase = .triggered

/-- Chooses between the content of the region and what stands in for it. -/
def materializeOr {ρ : Type} (o : Observer ι) (content fallback : ρ) : ρ :=
  if o.isMaterialized then content else fallback

/-- The region becomes visible: the listener is told. -/
def trigger (o : Observer ι) : Step (Observer ι) (Call ι Unit) Bool :=
  ⟨{ o with phase := .triggered }, Call.deliver o.settings.listener (), true⟩

/-- Starts watching, once. Answers whether the region became visible by that. -/
def observe (o : Observer ι) : Step (Observer ι) (Call ι Unit) Bool :=
  if o.disposed || o.phase ≠ .unobserved then
    .quiet o false
  else
    match o.support with
    | .native => .quiet { o with phase := .observing } false
    | .unsupported => o.trigger

/-- Whether a sighting is enough. A ratio that is no number never is. -/
def accepts (o : Observer ι) (s : Sighting) : Bool :=
  s.intersecting && !s.ratio.isNaN && !(s.ratio < o.settings.threshold)

/-- Takes in a report. Answers whether the region became visible by it. -/
def sight (o : Observer ι) (s : Sighting) : Step (Observer ι) (Call ι Unit) Bool :=
  if o.disposed || !o.isObserving then
    .quiet o false
  else if o.accepts s then
    o.trigger
  else
    .quiet o false

/-- Takes in the rectangles of the region and the viewport. They are not measured unless
the observer is watching. -/
def sightGeometry (o : Observer ι) (region viewport : Rect) :
    Step (Observer ι) (Call ι Unit) Bool :=
  if o.disposed || !o.isObserving then
    .quiet o false
  else
    o.sight (Sighting.measure region viewport o.settings.triggerMargin)

/-- Stops watching. A region that became visible stays so. -/
def disconnect (o : Observer ι) : Observer ι :=
  if o.disposed then
    o
  else
    { o with disposed := true
             phase := if o.phase = .triggered then .triggered else .disconnected }

/-- Takes in an observation and answers whether the region became visible by it. -/
def apply (o : Observer ι) : Observation → Step (Observer ι) (Call ι Unit) Bool
  | .observe => o.observe
  | .sight s => o.sight s
  | .geometry region viewport => o.sightGeometry region viewport
  | .disconnect => .quiet o.disconnect false

end Observer

end Windowing
