import Headroom.Cycle.Report
import Headroom.LogBatch.Outcome

/-!
The health of the parts of a service, as the outcomes of batches and cycles show
it, and whether the service may be sent work.
-/
namespace Headroom

/-- How a part does. A degraded part failed last time but still takes work. -/
inductive Status where
  | healthy | degraded | unhealthy
  deriving DecidableEq, Repr, Inhabited

namespace Status

def name : Status → String
  | healthy => "healthy"
  | degraded => "degraded"
  | unhealthy => "unhealthy"

def read : Json.Reader Status :=
  .choice <| [healthy, degraded, unhealthy].map fun s => (s.name, s)

/-- The worse of two. -/
def worse : Status → Status → Status
  | unhealthy, _ | _, unhealthy => unhealthy
  | degraded, _ | _, degraded => degraded
  | healthy, healthy => healthy

def isOperational (s : Status) : Bool := s != unhealthy

end Status

/-- The parts of the service that outcomes bear on. -/
inductive Component where
  | pipeline | controller | allocationStore | metricsBackend
  deriving DecidableEq, Repr, Inhabited

def Component.name : Component → String
  | .pipeline => "pipeline"
  | .controller => "controller"
  | .allocationStore => "allocation_store"
  | .metricsBackend => "metrics_backend"

def Component.all : List Component := [.pipeline, .controller, .allocationStore, .metricsBackend]

/-- How one part does, with a message unless it is healthy. -/
structure Condition where
  status : Status
  message : Option String := none
  deriving DecidableEq, Repr, Inhabited

/-- The parts by name, and whether the service has been started up. -/
structure Health where
  components : List (String × Condition) := []
  started : Bool := false
  /-- The time, in seconds since 1970, that changes are noted with. -/
  clock : Int64 := 0
  /-- When each part's condition was last put, which may have been the same again. -/
  changed : List (String × Int64) := []
  deriving DecidableEq, Repr, Inhabited

namespace Health

/-- Put the condition of a part; a part not known before comes last. -/
def put (h : Health) (name : String) (condition : Condition) : Health :=
  let h := { h with changed := (name, h.clock) :: h.changed.filter (·.1 != name) }
  if h.components.any (·.1 == name) then
    { h with components := h.components.map fun entry =>
        if entry.1 == name then (name, condition) else entry }
  else { h with components := h.components ++ [(name, condition)] }

def setHealthy (h : Health) (c : Component) : Health := h.put c.name ⟨.healthy, none⟩

def setDegraded (h : Health) (c : Component) (message : String) : Health :=
  h.put c.name ⟨.degraded, some message⟩

def setUnhealthy (h : Health) (c : Component) (message : String) : Health :=
  h.put c.name ⟨.unhealthy, some message⟩

/-- The time at which a part's condition was last put. -/
def changedAt (h : Health) (name : String) : Int64 := (h.changed.lookup name).getD h.clock

/-- All parts of the service, healthy. -/
def initial : Health := Component.all.foldl setHealthy {}

/-- Take in the outcome of a batch. A batch that is refused is its sender's matter. -/
def recordBatch (h : Health) : LogBatch.Outcome → Health
  | .published _ => (h.setHealthy .pipeline).setHealthy .metricsBackend
  | .publishFailed _ error => h.setDegraded .metricsBackend error.message
  | .skipped | .rejected _ => h

/-- Take in the outcome of a cycle. A transient error has used up its attempts by
then, so it speaks against the collaborators. -/
def recordCycle (h : Health) (outcome : Cycle.Outcome) : Health :=
  match outcome with
  | .failed _ error _ =>
    let h := h.setDegraded .controller error.message
    if error.isTransient then
      h.setUnhealthy .allocationStore ("unreachable after retries: " ++ error.message)
    else h
  | .scaled _ _ _ (.stale ..) =>
    ((h.setHealthy .controller).setHealthy .allocationStore).setDegraded .metricsBackend
      outcome.summary
  | .ignored _ => h
  | _ => (h.setHealthy .controller).setHealthy .allocationStore

/-- The worst status of any part. -/
def status (h : Health) : Status :=
  (h.components.map (·.2.status)).foldl Status.worse .healthy

/-- Why the service may not be sent work, if it may not. -/
def hindrance? (h : Health) : Option String :=
  if ¬h.started then some "Scaler not yet initialized"
  else if ¬h.status.isOperational then some "Component unhealthy"
  else none

end Health
end Headroom
