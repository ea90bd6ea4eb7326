import Windowing.RenderGate.Basic
import Windowing.RenderGate.Dependency
import Windowing.ScrollController
import Windowing.Timing.Sampler
import Windowing.Visibility.Observer
import Windowing.WindowedList.Entries
import Windowing.WindowedList.Update
import Windowing.Proofs.Geometry.Whole
import Windowing.Proofs.ScrollController.Settling
import Windowing.Proofs.WindowedList.Batching
import Windowing.Proofs.Geometry.Overscan
import Windowing.Proofs.Visibility.OneShot
import Windowing.Proofs.WindowedList.Copying
import Windowing.Proofs.WindowedList.Nearest
import Windowing.Proofs.WindowedList.Reading
import Windowing.Proofs.WindowedList.Showing
import Windowing.Proofs.Timing.Emission
import Windowing.Proofs.Timing.Rate
import Windowing.Proofs.Timing.Cycles
import Windowing.Proofs.ScrollController.Queue
import Windowing.Proofs.ScrollController.Interval
import Windowing.Proofs.ScrollController.Disposal
import Windowing.Proofs.Geometry.Monotone
import Windowing.Proofs.WindowedList.OnTrack
import Windowing.Proofs.WindowedList.Reconfiguring
import Windowing.Proofs.WindowedList.Replaying
import Windowing.Proofs.RenderGate.LastRendering
import Windowing.Proofs.ScrollController.ByProgram
import Windowing.Proofs.Rect.Overlap
import Windowing.Proofs.Visibility.Fraction
import Windowing.Proofs.Binary.TakingBack
import Windowing.Proofs.Extent.Indexes
import Windowing.Proofs.Extent.Multiples
import Windowing.Proofs.Timing.Delivery
import Windowing.Proofs.WindowedList.HitTesting
