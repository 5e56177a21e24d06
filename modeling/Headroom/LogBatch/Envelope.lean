import Headroom.LogBatch.Encoding
import Headroom.Sample

/-!
The envelope of a log batch: where the log comes from, and its events. An envelope
that only probes the delivery is a control message and carries no records.
-/
namespace Headroom.LogBatch

/-- A log batch as it is handed in. -/
structure Delivery where
  encoding : Encoding := .gzipBase64
  payload : String
  deriving DecidableEq, Repr

def Delivery.toJson (d : Delivery) : Json :=
  .object [("encoding", .string d.encoding.name), ("payload", .string d.payload)]

def Delivery.read : Json.Reader Delivery := fun tree => do
  let m ← Json.Members.of? ["encoding", "payload"] tree
  let encoding ← m.defaulted "encoding" .gzipBase64 Encoding.read
  let payload ← m.required "payload" .string
  return { encoding, payload }

/-- The envelope as written. -/
structure Envelope where
  kind : Option String := none
  group : Option String := none
  stream : Option String := none
  events : List Record := []
  deriving DecidableEq, Repr

/-- The kind of an envelope that only probes the delivery. -/
def controlKind : String := "CONTROL_MESSAGE"

/-- An event: its time, which may be absent, and its message. -/
def readEvent : Json.Reader Record := fun tree => do
  let m ← Json.Members.of? ["timestamp", "message"] tree
  let timestamp ← m.defaulted "timestamp" none (.optional .int64)
  let message ← m.required "message" .string
  return { message, timestamp }

def Envelope.read : Json.Reader Envelope := fun tree => do
  let m ← Json.Members.of? ["messageType", "logGroup", "logStream", "logEvents"] tree
  let kind ← m.defaulted "messageType" none (.optional .string)
  let group ← m.defaulted "logGroup" none (.optional .string)
  let stream ← m.defaulted "logStream" none (.optional .string)
  let events ← m.defaulted "logEvents" [] (.list readEvent)
  return { kind, group, stream, events }

/-- An event as an object. -/
def eventToJson (r : Record) : Json :=
  .object
    [("timestamp", (r.timestamp.map fun t => Json.integer t.toInt).getD .null),
      ("message", .string r.message)]

def Envelope.toJson (e : Envelope) : Json :=
  .object
    [("messageType", .optionalString e.kind), ("logGroup", .optionalString e.group),
      ("logStream", .optionalString e.stream), ("logEvents", .array (e.events.map eventToJson))]

/-- A log batch that has been decoded. -/
structure Batch where
  group : Option String
  stream : Option String
  control : Bool
  records : List Record
  deriving DecidableEq, Repr

/-- The batch that an envelope holds. -/
def Envelope.batch (e : Envelope) : Batch :=
  let control := e.kind == some controlKind
  { group := e.group
    stream := e.stream
    control
    records := if control then [] else e.events }

/-- Read the content of a payload. -/
def readContent (content : List UInt8) : Except Failure Batch :=
  match (Json.Raw.ofBytes? content).bind Envelope.read with
  | some envelope => .ok envelope.batch
  | none => .error (.refused (.decode "invalid envelope: malformed content"))

/-- Decode a payload. -/
def decode (limit : Option Nat) (encoding : Encoding) (payload : List UInt8) :
    Except Failure Batch :=
  unpack limit encoding payload >>= readContent

/-- Decode a log batch as it was handed in. -/
def Delivery.decode (limit : Option Nat) (d : Delivery) : Except Failure Batch :=
  LogBatch.decode limit d.encoding d.payload.toUTF8.toList

end Headroom.LogBatch
