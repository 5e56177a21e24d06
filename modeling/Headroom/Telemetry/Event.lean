import Headroom.Collaborator
import Headroom.Cycle.Report
import Headroom.LogBatch.Outcome

/-!
What a running service tells about itself, in the order in which it happens. Log
lines and counters are both read off these events.
-/
namespace Headroom

inductive Event where
  | started (version backend : String)
  | stopped (reason : String)
  /-- A cycle went from one state to another. -/
  | transition (family : String) (source target : Cycle.State)
  /-- A call is about to be tried again. -/
  | retried (operation : Operation)
  /-- A cycle bound its service to a revision of this number. -/
  | bound (number : UInt32)
  /-- The alarm could not be set after the service was bound. -/
  | alarmLeftBehind
  | cycleEnded (family : String) (outcome : Cycle.Outcome)
  /-- Datapoints were offered to the metrics backend, which has answered or not. -/
  | publishAttempted
  | batchHandled (metricNamespace : String) (outcome : LogBatch.Outcome)
  deriving DecidableEq, Repr

end Headroom
