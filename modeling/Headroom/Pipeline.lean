import Headroom.Target
import Headroom.Telemetry.Event

/-!
From a log batch to published metrics: decode, average, and offer both datapoints
to the metrics backend in one call that is never repeated. Whatever goes wrong is
part of the outcome, but for a count that overflows: then the handling breaks off.
-/
namespace Headroom

structure Pipeline where
  target : Target
  /-- The most bytes that a payload may unpack to. -/
  limit : Option Nat := none
  /-- How long the metrics backend may take, in milliseconds. -/
  publishTimeout : Nat := 10000
  deriving DecidableEq, Repr

namespace Pipeline

open LogBatch (Delivery Outcome)

/-- The averages to publish, or the outcome of a batch that has none; there is no outcome
either where the handling breaks off. -/
def prepare (p : Pipeline) (d : Delivery) : Except (Option Outcome) Averages :=
  match d.decode p.limit with
  | .error (.refused error) => .error (some (.rejected error))
  | .error .overflow => .error none
  | .ok batch =>
    if batch.control then .error (some .skipped)
    else
      match Averages.ofRecords p.target.container batch.records with
      | .error error => .error (some (.rejected error))
      | .ok averages => .ok averages

/-- The failure of a backend that took too long. -/
def timeout (p : Pipeline) : Error :=
  .publish ("metrics backend did not respond within " ++ toString p.publishTimeout ++ "ms")

/-- A failure to publish, whatever the backend called it. -/
def publishFailure : Error → Error
  | .publish detail => .publish detail
  | other => .publish other.message

/-- The outcome once the backend has answered. -/
def conclude (averages : Averages) : Except Error Unit → Outcome
  | .ok () => .published averages
  | .error error => .publishFailed averages (publishFailure error)

/-- What an outcome tells, where the backend was asked if `asked`. -/
def events (p : Pipeline) (asked : Bool) (outcome : Outcome) : List Event :=
  (if asked then [.publishAttempted] else []) ++
    [.batchHandled p.target.metricNamespace outcome]

/-- A handled batch with its events and the state of the backend. A handling that breaks off
has no outcome, and comes before all events. -/
structure Handled (σ : Type) where
  outcome : Option Outcome
  events : List Event
  world : σ

/-- Handle one batch. `publish` answers within the timeout or with `timeout`. -/
def handle {σ : Type} (p : Pipeline)
    (publish : σ → String → List Datapoint → Except Error Unit × σ) (world : σ) (d : Delivery) :
    Handled σ :=
  match p.prepare d with
  | .error none => ⟨none, [], world⟩
  | .error (some outcome) => ⟨some outcome, p.events false outcome, world⟩
  | .ok averages =>
    let (reply, world) := publish world p.target.metricNamespace averages.datapoints
    let outcome := conclude averages reply
    ⟨some outcome, p.events true outcome, world⟩

end Pipeline
end Headroom
