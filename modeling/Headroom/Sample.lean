import Headroom.Json.Raw
import Headroom.Json.Members
import Headroom.Text.Blank

/-!
Utilization samples. A record of a log batch is a text; it is a sample when it is
a JSON object with the measured quantities, the names of the cluster and the
service, and a time of its own or of the event that carried it.
-/
namespace Headroom

/-- One record of a log batch, still unread. -/
structure Record where
  message : String
  /-- The time that the log service gave the event. -/
  timestamp : Option Int64
  deriving DecidableEq, Repr

structure Sample where
  cluster : String
  service : String
  container : Option String
  cpu : Float
  memory : Float
  timestamp : Int64
  deriving DecidableEq, Repr

namespace Sample

/-- Why a record is no sample. -/
inductive Rejection where
  | notAnObject
  | missing (member : String)
  | notNumeric (member : String)
  deriving DecidableEq, Repr

/-- A measured quantity: a number, or a text that reads as one; always finite. -/
def quantity (record : Json) (member : String) : Except Rejection Float :=
  let finite (x : Option Float) : Except Rejection Float :=
    match x with
    | some x => if x.isFinite then .ok x else .error (.notNumeric member)
    | none => .error (.notNumeric member)
  match record.member? member with
  | none | some .null => .error (.missing member)
  | some (.number n) => finite (some n.toFloat)
  | some (.string text) => finite (Decimal.readFloat? (Text.trim text))
  | some _ => finite none

/-- A name, which must be a text. -/
def name (record : Json) (member : String) : Except Rejection String :=
  match (record.member? member).bind Json.string? with
  | some text => .ok text
  | none => .error (.missing member)

/-- The record's own time if it has a whole one, else that of its event. -/
def time (record : Json) (event : Option Int64) : Except Rejection Int64 :=
  match (record.member? "Timestamp").bind Json.int64? <|> event with
  | some timestamp => .ok timestamp
  | none => .error (.missing "Timestamp")

/-- The sample of an object. -/
def ofObject (record : Json) (event : Option Int64) : Except Rejection Sample := do
  let cpu ← quantity record "CpuUtilized"
  let memory ← quantity record "MemoryUtilized"
  let cluster ← name record "ClusterName"
  let service ← name record "ServiceName"
  let timestamp ← time record event
  let container := (record.member? "ContainerName").bind Json.string?
  return { cluster, service, container, cpu, memory, timestamp }

/-- Read a record. The first requirement that fails names the rejection. -/
def ofRecord (record : Record) : Except Rejection Sample :=
  match Json.ofString? record.message with
  | some (.object members) => ofObject (.object members) record.timestamp
  | _ => .error .notAnObject

def toJson (s : Sample) : Json :=
  .object
    [("cluster_name", .string s.cluster), ("service_name", .string s.service),
      ("container_name", .optionalString s.container), ("cpu_utilized", .float s.cpu),
      ("memory_utilized", .float s.memory), ("timestamp", .integer s.timestamp.toInt)]

def read : Json.Reader Sample := fun tree => do
  let m ← Json.Members.of?
    ["cluster_name", "service_name", "container_name", "cpu_utilized", "memory_utilized",
      "timestamp"] tree
  let cluster ← m.required "cluster_name" .string
  let service ← m.required "service_name" .string
  let container ← m.nullable "container_name" .string
  let cpu ← m.required "cpu_utilized" .float
  let memory ← m.required "memory_utilized" .float
  let timestamp ← m.required "timestamp" .int64
  return { cluster, service, container, cpu, memory, timestamp }

end Sample
end Headroom
