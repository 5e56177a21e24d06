import Headroom.Alarm
import Headroom.Allocation.Basic

/-!
What one scaling cycle comes to, and the states it went through.
-/
namespace Headroom.Cycle

inductive State where
  | idle | describing | computing | registering | rebinding | adjustingAlarm | error
  deriving DecidableEq, Repr, Inhabited

namespace State

/-- The label used in logs and summaries. -/
def label : State → String
  | idle => "idle"
  | describing => "describing"
  | computing => "computing"
  | registering => "registering"
  | rebinding => "rebinding"
  | adjustingAlarm => "adjusting_alarm"
  | error => "error"

/-- The name used in JSON. -/
def name : State → String
  | idle => "Idle"
  | describing => "Describing"
  | computing => "Computing"
  | registering => "Registering"
  | rebinding => "Rebinding"
  | adjustingAlarm => "AdjustingAlarm"
  | error => "Error"

def all : List State :=
  [idle, describing, computing, registering, rebinding, adjustingAlarm, error]

def read : Json.Reader State := .choice <| all.map fun s => (s.name, s)

end State

/-- What happened to the alarm once the service was bound to the new revision. -/
inductive AlarmUpdate where
  | patched (alarm : String) (threshold : Float)
  /-- The binding stands, and the alarm still has the threshold of the old capacity. -/
  | stale (alarm : String) (threshold : Float) (error : Error)
  deriving DecidableEq, Repr

inductive Outcome where
  /-- The service now runs the new revision. -/
  | scaled (previous new : Revision) (memory : UInt32) (alarm : AlarmUpdate)
  /-- The memory is at the ceiling; nothing was registered. -/
  | saturated (current : Revision) (memory ceiling : UInt32)
  /-- Another cycle holds the target or has moved the binding. The orphan is a
  revision that this cycle registered and that nothing is bound to. -/
  | superseded (detail : String) (orphan : Option Revision)
  /-- The notification did not ask for more resources. -/
  | ignored (state : AlarmState)
  | failed (state : State) (error : Error) (orphan : Option Revision)
  deriving DecidableEq, Repr

/-- An outcome with the states passed through on the way to it. -/
structure Report where
  outcome : Outcome
  path : List State
  deriving DecidableEq, Repr

namespace Outcome

def label : Outcome → String
  | scaled _ _ _ (.patched ..) => "scaled"
  | scaled _ _ _ (.stale ..) => "alarm_stale"
  | saturated .. => "saturated"
  | superseded .. => "superseded"
  | ignored _ => "ignored"
  | failed .. => "failed"

/-- A cycle fails when it ends in an error or leaves the alarm behind. -/
def isSuccess : Outcome → Bool
  | scaled _ _ _ (.stale ..) | failed .. => false
  | _ => true

/-- The remark on a revision that was registered for nothing. -/
def orphanRemark : Option Revision → String
  | some revision => " (unused revision " ++ revision.text ++ ")"
  | none => ""

def summary : Outcome → String
  | scaled previous new memory (.patched alarm threshold) =>
    "Scaled " ++ previous.text ++ " -> " ++ new.text ++ " (" ++ toString memory ++
      " MiB); alarm " ++ alarm ++ " threshold set to " ++ Decimal.plain threshold
  | scaled previous new memory (.stale alarm threshold error) =>
    "Scaled " ++ previous.text ++ " -> " ++ new.text ++ " (" ++ toString memory ++
      " MiB) but alarm " ++ alarm ++ " was not set to " ++ Decimal.plain threshold ++ ": " ++
      error.message
  | saturated current memory ceiling =>
    current.text ++ " already at memory ceiling (" ++ toString memory ++ " of " ++
      toString ceiling ++ " MiB), nothing to do"
  | superseded detail orphan => "Superseded: " ++ detail ++ orphanRemark orphan
  | ignored state => "Alarm state " ++ state.name ++ ", nothing to do"
  | failed state error orphan =>
    "Scaling failed while " ++ state.label ++ ": " ++ error.message ++ orphanRemark orphan

end Outcome

namespace Report

def label (r : Report) : String := r.outcome.label

def isSuccess (r : Report) : Bool := r.outcome.isSuccess

def summary (r : Report) : String := r.outcome.summary

/-- Whether the cycle went through a state. -/
def visited (r : Report) (state : State) : Bool := state ∈ r.path

end Report
end Headroom.Cycle
