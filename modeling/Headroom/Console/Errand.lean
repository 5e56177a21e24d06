import Headroom.Averages
import Headroom.Console.Arguments
import Headroom.Console.Table
import Headroom.Decimal.Fixed
import Headroom.Gateway.Client
import Headroom.Instant
import Headroom.Json.Printer
import Headroom.LogBatch.Envelope
import Headroom.Service.Answer

/-!
What a command does. A command makes at most one request, so it is either done at
once or is a request together with what follows from the reply.
-/
namespace Headroom.Console

open Gateway (HttpRequest HttpReply Url)

/-- What the user's file of preferences may say. -/
structure Preferences where
  url : Option String := none
  format : Option String := none
  container : Option String := none
  deriving DecidableEq, Repr

def Preferences.read : Json.Reader Preferences := fun tree => do
  let m ← Json.Members.of? ["api_url", "default_format", "container_name"] tree
  let url ← m.nullable "api_url" .string
  let format ← m.nullable "default_format" .string
  let container ← m.nullable "container_name" .string
  return { url, format, container }

/-- The address used when none is given. -/
def usualUrl : String := "http://localhost:8080"

/-- The container named when none is given. -/
def usualContainer : String := "default"

/-- What a command writes, line by line, and its exit status. -/
structure Output where
  lines : List String := []
  errors : List String := []
  status : Nat := 0
  deriving DecidableEq, Repr

/-- Why a command fails. -/
inductive Failure where
  | preferences
  | url
  | path
  | file (name : String)
  | envelope
  | rawGzip
  /-- The service was not reached. -/
  | unsent
  /-- The service refused, and not in the way it answers invocations. -/
  | refused (status : Nat) (body : String)
  | reply
  /-- The batch was read, and something was wrong with it. -/
  | batch (cause : Error)
  /-- The service carried the invocation out, and it failed. -/
  | invocation (outcome : String)
  | unhealthy
  deriving DecidableEq, Repr

def Failure.message : Failure → String
  | .preferences => "Failed to parse config file"
  | .url => "Invalid API URL"
  | .path => "Invalid path"
  | .file name => "Failed to read " ++ name
  | .envelope => "Envelope is not valid JSON"
  | .rawGzip => "raw gzip cannot be sent in a JSON request"
  | .unsent => "Failed to send request"
  | .refused status body => "API error (" ++ Gateway.statusText status ++ "): " ++ body
  | .reply => "Failed to parse response"
  | .batch cause => cause.message
  | .invocation outcome => "invocation failed (" ++ outcome ++ ")"
  | .unhealthy => "scaler is unhealthy"

/-- Lines, and then a failure or none. -/
def Output.ending (lines errors : List String) : Option Failure → Output
  | none => { lines, errors }
  | some failure => { lines, errors := errors ++ ["Error: " ++ failure.message], status := 1 }

/-- How to use the program. -/
def usage : List String :=
  ["CLI for the Resource Scaler", "",
    "Usage: scalectl [--api-url URL] [-f table|json] COMMAND", "",
    "Commands:",
    "  ingest FILE [--encoding ENCODING]",
    "      Send a JSON log envelope to the scaler as a log batch",
    "  alarm [--state STATE] [--alarm-name NAME] [--reason REASON]",
    "      Deliver an alarm state change to the scaler",
    "  aggregate FILE [--encoding ENCODING] [-c CONTAINER]",
    "      Decode and average a captured log batch without publishing",
    "  health",
    "      Show scaler health"]

/-- What is written about a command line that is not carried out. -/
def Output.ofStop : Stop → Output
  | .misuse => { errors := usage, status := 2 }
  | .help => { lines := usage }
  | .version => { lines := ["scalectl 0.1.0"] }

def Output.failed (failure : Failure) : Output := .ending [] [] (some failure)

/-- Lines, and then the result of an invocation: told among them if it succeeded,
and among the errors if it failed. -/
def Output.ofInvocation (lines : List String) (success : Bool) (outcome summary : String) :
    Output :=
  if success then .ending (lines ++ ["✓ " ++ outcome ++ ": " ++ summary]) [] none
  else .ending lines ["✗ " ++ outcome ++ ": " ++ summary] (some (.invocation outcome))

/-- Read a reply. Failed invocations have a status of failure and a regular body. -/
def readReply {α : Type} (read : Json.Reader α) : HttpReply → Except Failure (Nat × α)
  | .lost => .error .unsent
  | .received status body =>
    match (Json.Raw.ofString? body).bind read with
    | some answer => .ok (status, answer)
    | none =>
      if Gateway.isSuccessStatus status then .error .reply else .error (.refused status body)

/-- The answer to a notification, with states by any names. -/
structure CycleTold where
  success : Bool
  summary : String
  outcome : String
  path : List String := []
  deriving DecidableEq, Repr

def CycleTold.read : Json.Reader CycleTold := fun tree => do
  let m ← Json.Members.of? ["success", "summary", "outcome", "transitions"] tree
  let success ← m.required "success" .bool
  let summary ← m.required "summary" .string
  let outcome ← m.required "outcome" .string
  let path ← m.defaulted "transitions" [] (.list .string)
  return { success, summary, outcome, path }

def CycleTold.toJson (t : CycleTold) : Json :=
  .object
    [("success", .bool t.success), ("summary", .string t.summary), ("outcome", .string t.outcome),
      ("transitions", .array (t.path.map .string))]

/-- A command under way. -/
inductive Errand where
  | done (output : Output)
  | ask (request : HttpRequest) (finish : HttpReply → Output)

def Errand.failed (failure : Failure) : Errand := .done (.failed failure)

/-- The base address, if it is one. -/
def baseUrl (text : String) : Except Failure Url := (Url.parse text).mapError fun _ => .url

/-- The address of a resource of the service. -/
def resource (base : Url) (segments : List String) : Except Failure Url :=
  match base.join? segments with
  | some url => .ok url
  | none => .error .path

/-- The delivery of an envelope. -/
def delivery (envelope : List UInt8) (encoding : LogBatch.Encoding) :
    Except Failure LogBatch.Delivery :=
  match Json.ofBytes? envelope with
  | none => .error .envelope
  | some _ =>
    match encoding with
    | .gzip => .error .rawGzip
    | encoding =>
      match String.fromUTF8? ⟨(LogBatch.pack encoding envelope).toArray⟩ with
      | some payload => .ok { encoding, payload }
      | none => .error .envelope

/-- Show the answer to a log batch. -/
def showBatch (format : Format) (reply : HttpReply) : Output :=
  match readReply Service.BatchAnswer.read reply with
  | .error failure => .failed failure
  | .ok (status, a) =>
    let lines :=
      match format with
      | .json => [a.toJson.pretty]
      | .table => ["ℹ HTTP " ++ Gateway.statusText status]
    .ofInvocation lines a.success a.outcome a.summary

def ingest (url file : String) (content : Option (List UInt8)) (encoding : LogBatch.Encoding)
    (format : Format) : Except Failure Errand := do
  let base ← baseUrl url
  match content with
  | none => throw (.file file)
  | some envelope =>
    let delivery ← delivery envelope encoding
    let url ← resource base ["v1", "log-batches"]
    return .ask ⟨"POST", url, some delivery.toJson⟩ (showBatch format)

/-- A notification of an alarm's state, in the envelope of a delivered message. -/
def notification (state : String) (name : Option String) (reason : String) : Json :=
  let message : Json :=
    .object
      (optionalMember "AlarmName" .string name ++
        [("NewStateReason", .string reason), ("NewStateValue", .string state)])
  .object
    [("Records", .array [.object
      [("Sns", .object [("Message", .string message.render)])]])]

/-- Show the answer to a notification. -/
def showCycle (format : Format) (reply : HttpReply) : Output :=
  match readReply CycleTold.read reply with
  | .error failure => .failed failure
  | .ok (_, t) =>
    let lines :=
      match format with
      | .json => [t.toJson.pretty]
      | .table => ["Transitions", "  " ++ " -> ".intercalate t.path]
    .ofInvocation lines t.success t.outcome t.summary

def alarm (url state : String) (name : Option String) (reason : String) (format : Format) :
    Except Failure Errand := do
  let base ← baseUrl url
  let url ← resource base ["v1", "alarm-notifications"]
  return .ask ⟨"POST", url, some (notification state name reason)⟩ (showCycle format)

/-- A datapoint as a row. -/
def datapointRow (d : Datapoint) : List String :=
  [d.metric.name, Decimal.fixed 2 d.value, d.unit,
    ", ".intercalate (d.dimensions.map fun dimension => dimension.name ++ "=" ++ dimension.value),
    instantText d.timestamp.toInt]

/-- The averages of a batch; a control message has none. -/
def averages? (content : List UInt8) (encoding : LogBatch.Encoding) (container : String) :
    Except LogBatch.Failure (Option Averages) := do
  let batch ← LogBatch.decode none encoding content
  if batch.control then return none
  return some (← (Averages.ofRecords container batch.records).mapError .refused)

def aggregate (file : String) (content : Option (List UInt8)) (encoding : LogBatch.Encoding)
    (container : String) (format : Format) : Output :=
  match content with
  | none => .failed (.file file)
  | some content =>
    match averages? content encoding container with
    | .error (.refused error) => .failed (.batch error)
    -- A program that breaks off ends with 101; without a limit no count overflows.
    | .error .overflow => { errors := ["attempt to add with overflow"], status := 101 }
    | .ok none => { lines := ["⚠ Control message, nothing to aggregate"] }
    | .ok (some averages) =>
      match format with
      | .json => { lines := [averages.toJson.pretty] }
      | .table =>
        { lines :=
            showTable ["Metric", "Value", "Unit", "Dimensions", "Timestamp"]
              (averages.datapoints.map datapointRow) ++
            ["", toString averages.samples ++ " samples, " ++ toString averages.skipped ++
              " skipped"] }

/-- A part of the service as a row; its time is in seconds. -/
def componentRow (name : String) (c : Service.ComponentAnswer) : List String :=
  [name, c.condition.status.name, c.condition.message.getD "-",
    instantText (c.updatedAt * 1000).toInt]

/-- Show the health of the service. -/
def showHealth (format : Format) (reply : HttpReply) : Output :=
  match readReply Service.HealthAnswer.read reply with
  | .error failure => .failed failure
  | .ok (_, h) =>
    let lines :=
      match format with
      | .json => [h.toJson.pretty]
      | .table =>
        let components := h.components.mergeSort fun a b => decide (a.1 ≤ b.1)
        ["Overall: " ++ h.status.name] ++
          showTable ["Component", "Status", "Message", "Updated"]
            (components.map fun (name, c) => componentRow name c)
    .ending lines [] (if h.status = .unhealthy then some .unhealthy else none)

def health (url : String) (format : Format) : Except Failure Errand := do
  let base ← baseUrl url
  let url ← resource base ["healthz"]
  return .ask ⟨"GET", url, none⟩ (showHealth format)

/-- What a command line finds around it. -/
structure Surroundings where
  /-- The address that the environment gives for the service. -/
  url : Option String := none
  /-- The content of the user's preferences. -/
  preferences : Option String := none
  /-- The content of the file that the command reads. -/
  content : Option (List UInt8) := none
  deriving Repr

/-- Carry a command out, up to its request. -/
def Invocation.errand (i : Invocation) (around : Surroundings) : Errand :=
  let preferences : Option Preferences :=
    match around.preferences with
    | none => some {}
    | some text => (Json.Raw.ofString? text).bind Preferences.read
  match preferences with
  | none => .failed .preferences
  | some preferences =>
    let url := ((i.url.or around.url).or preferences.url).getD usualUrl
    let preferred := preferences.format.bind fun name => Format.ofName? name.toLower
    let format := (i.format.or preferred).getD .table
    let errand : Except Failure Errand :=
      match i.command with
      | .ingest file encoding => ingest url file around.content encoding format
      | .alarm state name reason => alarm url state name reason format
      | .aggregate file encoding container =>
        let container := (container.or preferences.container).getD usualContainer
        .ok (.done (aggregate file around.content encoding container format))
      | .health => health url format
    match errand with
    | .ok errand => errand
    | .error failure => .failed failure

end Headroom.Console
