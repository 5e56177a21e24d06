import Headroom.Health
import Headroom.Pipeline
import Headroom.Simulation.Schedule

/-!
A whole service in a simulated world, driven step by step: requests, notifications
and log batches as they would arrive, and what operators and other clients do to
the stores in between.
-/
namespace Headroom.Simulation

open Headroom.Cycle (Report Rules)

/-- A service with its collaborators, and the names whose state is looked at. -/
structure Scenario where
  rules : Rules
  pipeline : Pipeline
  world : World := {}
  health : Health := Health.initial
  families : List String := []
  services : List (String × String) := []
  alarms : List String := []

/-- One thing that happens. -/
inductive Step where
  /-- Disturb the next calls of an operation. -/
  | disturb (operation : Operation) (more : List Disturbance)
  /-- Serve a request, and take its report into health. -/
  | serve (request : Request)
  /-- Handle a notification, and take its report into health. -/
  | notify (text : String)
  /-- Serve requests together, on the one controller or each on its own. -/
  | race (shared : Bool) (requests : List Request)
  /-- Handle a log batch, and take its outcome into health. -/
  | batch (delivery : LogBatch.Delivery)
  | seed (allocation : Allocation)
  | register (allocation : Allocation)
  | describe (family : String)
  | revision (family : String) (number : UInt32)
  | bind (binding : Binding)
  | describeBinding (cluster service : String)
  | rebind (cluster service : String) (expected desired : Revision)
  | publish (metricNamespace : String) (datapoints : List Datapoint)
  | published
  | patchAlarm (alarm : String) (threshold : Float)
  | alarm (name : String)
  | setReady (ready : Bool)
  | setHealth (component : String) (condition : Condition)
  /-- Tell of a start and a stop. -/
  | lifecycle (version backend reason : String)

/-- What a step answers with. -/
inductive Answer where
  | done
  | report (report : Report)
  | reports (reports : List Report)
  /-- The outcome of a log batch, unless its handling broke off. -/
  | batch (outcome : Option LogBatch.Outcome)
  | revision (result : Except Error Revision)
  | allocation (result : Except Error Allocation)
  | found (allocation : Option Allocation)
  | binding (result : Except Error Binding)
  | acknowledged (result : Except Error Unit)
  | published (datapoints : List (String × Datapoint))
  | alarm (alarm : Option Alarm)

/-- What a step did: its answer, the calls made, and when the last of them ended. -/
structure Outcome where
  answer : Answer
  calls : List (Nat × Made) := []
  elapsed : Nat := 0

namespace Scenario

/-- Add a name to those looked at. -/
def watchFamily (s : Scenario) (family : String) : Scenario :=
  if family ∈ s.families then s else { s with families := s.families ++ [family] }

def watchService (s : Scenario) (cluster service : String) : Scenario :=
  if (cluster, service) ∈ s.services then s
  else { s with services := s.services ++ [(cluster, service)] }

def watchAlarm (s : Scenario) (alarm : String) : Scenario :=
  if alarm ∈ s.alarms then s else { s with alarms := s.alarms ++ [alarm] }

/-- Change the stores. -/
def withStores (s : Scenario) (stores : Stores) : Scenario :=
  { s with world := { s.world with stores } }

/-- The reports of requests served together. A request of the list runs on the
controller of its number. -/
def serveAll (s : Scenario) (requests : List (Nat × Request)) : List Report × Nat × Scenario :=
  let settled := Simulation.serveAll s.rules requests s.world
  (settled.threads.filterMap Thread.report?, settled.finish, { s with world := settled.world })

/-- Put the calls that a step made beside its answer. -/
def outcome (s : Scenario) (answer : Answer) (elapsed : Nat) : Outcome × Scenario :=
  ({ answer, calls := s.world.made.reverse, elapsed },
    { s with world := { s.world with made := [] } })

/-- Serve one request and take its report into health. -/
def serve (s : Scenario) (request : Request) : Outcome × Scenario :=
  let (reports, elapsed, s) := s.serveAll [(0, request)]
  match reports with
  | report :: _ =>
    let s := { s with health := s.health.recordCycle report.outcome }
    s.outcome (.report report) elapsed
  | [] => s.outcome .done elapsed

/-- Offer datapoints to the metrics backend within its time budget: the answer, how
long it took, and the world after it. -/
def offer (s : Scenario) (metricNamespace : String) (datapoints : List Datapoint) :
    Except Error Unit × Nat × World :=
  let (d, world) := s.world.next .publish
  let world := world.note 0 (.publish metricNamespace datapoints.length)
  let limit := s.pipeline.publishTimeout
  if limit < d.delay then (.error s.pipeline.timeout, limit, world)
  else
    let (reply, stores) := d.effect (fun s => s.publish metricNamespace datapoints) world.stores
    let world := { world with stores }
    if limit < d.delay + d.delayAfter then (.error s.pipeline.timeout, limit, world)
    else (reply, d.delay + d.delayAfter, world)

/-- Handle a log batch and take its outcome into health. -/
def batch (s : Scenario) (delivery : LogBatch.Delivery) : Outcome × Scenario :=
  let handled := s.pipeline.handle
    (fun (_, _) metricNamespace datapoints =>
      let (reply, elapsed, world) := s.offer metricNamespace datapoints
      (reply, elapsed, world))
    (0, s.world) delivery
  let (elapsed, world) := handled.world
  let s :=
    { s with
      world := world.tell handled.events
      health := handled.outcome.elim s.health s.health.recordBatch }
  s.outcome (.batch handled.outcome) elapsed

/-- Do one step. -/
def step (s : Scenario) : Step → Outcome × Scenario
  | .disturb operation more =>
    ({ answer := .done }, { s with world := s.world.disturb operation more })
  | .serve request => s.serve request
  | .notify text =>
    match Controller.intake s.pipeline.target text with
    | .ok request => s.serve request
    | .error report =>
      let s :=
        { s with
          world := s.world.tell (Controller.reportEvents s.pipeline.target.family report)
          health := s.health.recordCycle report.outcome }
      s.outcome (.report report) 0
  | .race shared requests =>
    let numbered := requests.zipIdx.map fun (request, i) =>
      (if shared then 0 else i + 1, request)
    let (reports, elapsed, s) := s.serveAll numbered
    s.outcome (.reports reports) elapsed
  | .batch delivery => s.batch delivery
  | .seed allocation =>
    let stores := s.world.stores
    let (revision, registry) := stores.registry.seed allocation
    ({ answer := .revision (.ok revision) },
      (s.withStores { stores with registry }).watchFamily allocation.family)
  | .register allocation =>
    let stores := s.world.stores
    let (reply, registry) := stores.registry.register allocation
    ({ answer := .revision reply },
      (s.withStores { stores with registry }).watchFamily allocation.family)
  | .describe family => ({ answer := .allocation (s.world.stores.registry.describe family) }, s)
  | .revision family number =>
    ({ answer := .found (s.world.stores.registry.revision? family number) }, s)
  | .bind binding =>
    let stores := s.world.stores
    ({ answer := .done },
      (s.withStores { stores with fleet := stores.fleet.insert binding }).watchService
        binding.cluster binding.service)
  | .describeBinding cluster service =>
    ({ answer := .binding (s.world.stores.fleet.describe cluster service) }, s)
  | .rebind cluster service expected desired =>
    let stores := s.world.stores
    let (reply, fleet) := stores.fleet.rebind cluster service expected desired
    ({ answer := .acknowledged reply }, s.withStores { stores with fleet })
  | .publish metricNamespace datapoints =>
    let (reply, stores) := s.world.stores.publish metricNamespace datapoints
    ({ answer := .acknowledged reply }, s.withStores stores)
  | .published => ({ answer := .published s.world.stores.monitor.published }, s)
  | .patchAlarm alarm threshold =>
    let stores := s.world.stores
    let (reply, monitor) := stores.monitor.patchAlarm alarm threshold
    ({ answer := .acknowledged reply }, s.withStores { stores with monitor })
  | .alarm name => ({ answer := .alarm (s.world.stores.monitor.alarm? name) }, s)
  | .setReady ready =>
    ({ answer := .done }, { s with health := { s.health with started := ready } })
  | .setHealth component condition =>
    ({ answer := .done }, { s with health := s.health.put component condition })
  | .lifecycle version backend reason =>
    ({ answer := .done },
      { s with world := s.world.tell [.started version backend, .stopped reason] })

/-- The events so far, in order. -/
def events (s : Scenario) : List Event := s.world.told.reverse

end Scenario
end Headroom.Simulation
