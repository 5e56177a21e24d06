import Headroom.Allocation.Json
import Headroom.Health

/-!
The bodies that the service answers with, written by the service and read by its
clients.
-/
namespace Headroom.Service

/-- The answer to a log batch. -/
structure BatchAnswer where
  success : Bool
  summary : String
  outcome : String
  deriving DecidableEq, Repr

/-- The answer that tells a batch's outcome. -/
def BatchAnswer.ofOutcome (o : LogBatch.Outcome) : BatchAnswer :=
  { success := o.isSuccess, summary := o.summary, outcome := o.label }

def BatchAnswer.members (a : BatchAnswer) : List (String × Json) :=
  [("success", .bool a.success), ("summary", .string a.summary), ("outcome", .string a.outcome)]

def BatchAnswer.toJson (a : BatchAnswer) : Json := .object a.members

def BatchAnswer.read : Json.Reader BatchAnswer := fun tree => do
  let m ← Json.Members.of? ["success", "summary", "outcome"] tree
  let success ← m.required "success" .bool
  let summary ← m.required "summary" .string
  let outcome ← m.required "outcome" .string
  return { success, summary, outcome }

/-- The answer to a notification. -/
structure CycleAnswer where
  success : Bool
  summary : String
  outcome : String
  path : List Cycle.State
  deriving DecidableEq, Repr

/-- The answer that tells a cycle's report. -/
def CycleAnswer.ofReport (r : Cycle.Report) : CycleAnswer :=
  { success := r.isSuccess, summary := r.summary, outcome := r.label, path := r.path }

def CycleAnswer.toJson (a : CycleAnswer) : Json :=
  .object
    [("success", .bool a.success), ("summary", .string a.summary), ("outcome", .string a.outcome),
      ("transitions", .array (a.path.map fun s => .string s.name))]

def CycleAnswer.read : Json.Reader CycleAnswer := fun tree => do
  let m ← Json.Members.of? ["success", "summary", "outcome", "transitions"] tree
  let success ← m.required "success" .bool
  let summary ← m.required "summary" .string
  let outcome ← m.required "outcome" .string
  let path ← m.required "transitions" (.list Cycle.State.read)
  return { success, summary, outcome, path }

/-- The health of one part; the time of its last change is in seconds since 1970. -/
structure ComponentAnswer where
  condition : Condition
  updatedAt : Int64
  deriving DecidableEq, Repr

/-- The members of a condition; a message is left out when there is none. -/
def conditionMembers (c : Condition) : List (String × Json) :=
  [("status", .string c.status.name)] ++ optionalMember "message" .string c.message

def ComponentAnswer.toJson (a : ComponentAnswer) : Json :=
  .object (conditionMembers a.condition ++ [("updated_at", .integer a.updatedAt.toInt)])

def ComponentAnswer.read : Json.Reader ComponentAnswer := fun tree => do
  let m ← Json.Members.of? ["status", "message", "updated_at"] tree
  let status ← m.required "status" Status.read
  let message ← m.nullable "message" .string
  let updatedAt ← m.required "updated_at" .int64
  return { condition := { status, message }, updatedAt }

/-- The health of the service and of its parts by name. -/
structure HealthAnswer where
  status : Status
  components : List (String × ComponentAnswer)
  deriving DecidableEq, Repr

def HealthAnswer.toJson (a : HealthAnswer) : Json :=
  .object
    [("status", .string a.status.name),
      ("components", .object (a.components.map fun (name, c) => (name, c.toJson)))]

/-- The health as it is told. -/
def HealthAnswer.ofHealth (h : Health) : HealthAnswer :=
  { status := h.status
    components := h.components.map fun (name, condition) =>
      (name, { condition, updatedAt := h.changedAt name }) }

/-- An object with values of one shape; of repeated keys the last counts. -/
def readByName {α : Type} (read : Json.Reader α) : Json.Reader (List (String × α))
  | .object members =>
    members.foldlM (fun known member => do
      let name ← member.1
      let value ← read member.2
      return if known.any (·.1 == name) then
          known.map fun entry => if entry.1 == name then (name, value) else entry
        else known ++ [(name, value)]) []
  | _ => none

def HealthAnswer.read : Json.Reader HealthAnswer := fun tree => do
  let m ← Json.Members.of? ["status", "components"] tree
  let status ← m.required "status" Status.read
  let components ← m.required "components" (readByName ComponentAnswer.read)
  return { status, components }

/-- Whether the service may be sent work, and why not. -/
structure ReadinessAnswer where
  ready : Bool
  reason : Option String
  deriving DecidableEq, Repr

/-- The readiness as it is told. -/
def ReadinessAnswer.ofHealth (h : Health) : ReadinessAnswer :=
  { ready := h.hindrance?.isNone, reason := h.hindrance? }

def ReadinessAnswer.toJson (a : ReadinessAnswer) : Json :=
  .object ([("ready", .bool a.ready)] ++ optionalMember "reason" .string a.reason)

def ReadinessAnswer.read : Json.Reader ReadinessAnswer := fun tree => do
  let m ← Json.Members.of? ["ready", "reason"] tree
  let ready ← m.required "ready" .bool
  let reason ← m.nullable "reason" .string
  return { ready, reason }

end Headroom.Service
