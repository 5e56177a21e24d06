import Headroom.Telemetry.Event

/-!
Counters over the events of a service, and one gauge: the number of the revision
that a service was bound to last.
-/
namespace Headroom.Telemetry

inductive Counter where
  | batches (label : String)
  | samplesSkipped
  | cycles (label : String)
  | retries (operation : Operation)
  | alarmFailures
  | publishObservations
  deriving DecidableEq, Repr

def Counter.name : Counter → String
  | .batches label => "batches_total\x7b" ++ label ++ "\x7d"
  | .samplesSkipped => "samples_skipped_total"
  | .cycles label => "scaling_cycles_total\x7b" ++ label ++ "\x7d"
  | .retries operation => "external_call_retries_total\x7b" ++ operation.name ++ "\x7d"
  | .alarmFailures => "alarm_patch_failures_total"
  | .publishObservations => "publish_latency_seconds"

/-- The counters that an event moves on, with how far. -/
def increments : Event → List (Counter × Nat)
  | .retried operation => [(.retries operation, 1)]
  | .alarmLeftBehind => [(.alarmFailures, 1)]
  | .cycleEnded _ outcome => [(.cycles outcome.label, 1)]
  | .publishAttempted => [(.publishObservations, 1)]
  | .batchHandled _ outcome =>
    [(.batches outcome.label, 1), (.samplesSkipped, outcome.invalidRecords)]
  | .started .. | .stopped _ | .transition .. | .bound _ => []

/-- The value of a counter after some events. -/
def count (counter : Counter) (events : List Event) : Nat :=
  ((events.flatMap increments).filterMap fun (c, n) => if c = counter then some n else none).foldl
    (· + ·) 0

/-- The counters that have moved, each once, in the order of their first move. -/
def moved (events : List Event) : List Counter :=
  ((events.flatMap increments).filterMap fun (c, n) => if n = 0 then none else some c).eraseDups

/-- The number of the last revision that was bound; zero before the first. -/
def activeRevision (events : List Event) : Nat :=
  events.foldl (fun last event =>
    match event with
    | .bound number => number.toNat
    | _ => last) 0

/-- Every counter that has moved and the gauge if it is not zero, by name. -/
def readings (events : List Event) : List (String × Nat) :=
  let gauge := activeRevision events
  (moved events).map (fun counter => (counter.name, count counter events)) ++
    if gauge = 0 then [] else [("active_revision", gauge)]

end Headroom.Telemetry
