import Headroom.Telemetry.Event

/-!
The log lines of a service. A line has a level, a message and named fields; every
line names the cluster and the service that the log is about.
-/
namespace Headroom.Telemetry

inductive Level where
  | info | warn
  deriving DecidableEq, Repr

def Level.name : Level → String
  | .info => "INFO"
  | .warn => "WARN"

structure Line where
  event : String
  level : Level
  message : String
  fields : List (String × Json)
  deriving Repr

/-- The line about a finished cycle. One that left its alarm behind is logged as a
failure of its last state. -/
def cycleLine (family : String) (outcome : Cycle.Outcome) : Line :=
  let failure (state : Cycle.State) (error : Error) : Line :=
    ⟨"scaling_failed", .warn, "Scaling cycle failed",
      [("family", .string family), ("state", .string state.label), ("kind", .string error.kind),
        ("error", .string error.message)]⟩
  match outcome with
  | .failed state error _ => failure state error
  | .scaled _ _ _ (.stale _ _ error) => failure .adjustingAlarm error
  | _ =>
    ⟨"scaling_completed", .info, "Scaling cycle completed",
      [("family", .string family), ("outcome", .string outcome.label),
        ("summary", .string outcome.summary)]⟩

/-- The line about a handled batch; a control message has none. -/
def batchLine? (metricNamespace : String) : LogBatch.Outcome → Option Line
  | .published a => some
    ⟨"batch_published", .info, "Calculated and published average cpu and memory",
      [("namespace", .string metricNamespace), ("samples", .count a.samples),
        ("skipped", .count a.skipped), ("cpu_avg", .float a.cpu.value),
        ("memory_avg", .float a.memory.value)]⟩
  | .skipped => none
  | .rejected error => some
    ⟨"batch_rejected", .warn, "Log batch rejected",
      [("kind", .string error.kind), ("error", .string error.message)]⟩
  | .publishFailed _ error => some
    ⟨"publish_failed", .warn, "Failed to put metrics to the metrics backend",
      [("namespace", .string metricNamespace), ("error", .string error.message)]⟩

/-- The line about an event, if it is logged. -/
def line? : Event → Option Line
  | .started version backend => some
    ⟨"scaler_started", .info, "Resource scaler started",
      [("version", .string version), ("backend", .string backend)]⟩
  | .stopped reason => some
    ⟨"scaler_shutdown", .info, "Resource scaler shutting down", [("reason", .string reason)]⟩
  | .transition family source target => some
    ⟨"scaling_transition", .info, "Scaling state transition",
      [("family", .string family), ("from", .string source.label),
        ("to", .string target.label)]⟩
  | .cycleEnded family outcome => some (cycleLine family outcome)
  | .batchHandled metricNamespace outcome => batchLine? metricNamespace outcome
  | .retried _ | .bound _ | .alarmLeftBehind | .publishAttempted => none

/-- A line as a flat object. -/
def Line.toJson (cluster service : String) (line : Line) : Json :=
  .object <|
    [("event", .string line.event), ("cluster", .string cluster), ("service", .string service)] ++
      line.fields ++ [("level", .string line.level.name), ("message", .string line.message)]

/-- The log of a service. -/
def log (events : List Event) : List Line := events.filterMap line?

end Headroom.Telemetry
