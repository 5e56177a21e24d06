import Headroom.Allocation.Json
import Headroom.Collaborator
import Headroom.Gateway.Status
import Headroom.Gateway.Url

/-!
The collaborators behind two HTTP gateways: one for task definitions and services,
one for datapoints and alarms. Each call is one request, and the reply to it is
read as an answer or as one of the failures that a cycle knows. How a request gets
to a gateway is a parameter.
-/
namespace Headroom.Gateway

structure Settings where
  /-- The base URL for task definitions and services. -/
  orchestratorUrl : String
  /-- The base URL for datapoints and alarms. -/
  metricsUrl : String
  requestTimeoutSeconds : Nat := 10
  deriving DecidableEq, Repr

def Settings.toJson (s : Settings) : Json :=
  .object
    [("orchestrator_url", .string s.orchestratorUrl), ("metrics_url", .string s.metricsUrl),
      ("request_timeout_secs", .count s.requestTimeoutSeconds)]

def Settings.read : Json.Reader Settings := fun tree => do
  let m ← Json.Members.of? ["orchestrator_url", "metrics_url", "request_timeout_secs"] tree
  let orchestratorUrl ← m.required "orchestrator_url" .string
  let metricsUrl ← m.required "metrics_url" .string
  let requestTimeoutSeconds ← m.defaulted "request_timeout_secs" 10 .uint64
  return { orchestratorUrl, metricsUrl, requestTimeoutSeconds }

structure HttpRequest where
  method : String
  url : Url
  body : Option Json
  deriving Repr

/-- What comes back: a reply with its status, or nothing. -/
inductive HttpReply where
  | received (status : Nat) (body : String)
  | lost
  deriving DecidableEq, Repr

/-- The two sides of the gateway; refusals that are not told apart by their status
are failures to publish on the one and invalid requests on the other. -/
inductive Side where
  | orchestrator | metrics
  deriving DecidableEq, Repr

structure Client where
  orchestrator : Url
  metrics : Url
  deriving DecidableEq, Repr

/-- Read a base URL, under which there must be addresses. -/
def baseUrl (text : String) : Except Error Url :=
  match Url.parse text with
  | .error error =>
    .error (.validation ("invalid gateway URL " ++ text ++ ": " ++ error.message))
  | .ok url =>
    match url.path with
    | .opaqueText _ => .error (.validation ("gateway URL " ++ text ++ " cannot be a base"))
    | .segments _ => .ok url

def Client.of (s : Settings) : Except Error Client := do
  let orchestrator ← baseUrl s.orchestratorUrl
  let metrics ← baseUrl s.metricsUrl
  return { orchestrator, metrics }

/-- The failure that a status stands for. -/
def failure (side : Side) (status : Nat) (body : String) : Error :=
  let detail := if body = "" then statusText status else statusText status ++ ": " ++ body
  if status = 404 then .notFound detail
  else if status = 409 then .conflict detail
  else if status = 408 ∨ status = 429 then .transient detail
  else if 500 ≤ status ∧ status < 600 then .transient detail
  else if status = 400 ∨ status = 422 then .validation detail
  else
    match side with
    | .metrics => .publish detail
    | .orchestrator => .validation detail

/-- The body of a successful reply. -/
def accepted (side : Side) : HttpReply → Except Error String
  | .lost => .error (.transient "request failed: no reply")
  | .received status body =>
    if isSuccessStatus status then .ok body else .error (failure side status body)

/-- A successful reply read as a value. -/
def readAnswer {α : Type} (side : Side) (read : Json.Reader α) (reply : HttpReply) :
    Except Error α := do
  let body ← accepted side reply
  match (Json.Raw.ofString? body).bind read with
  | some value => .ok value
  | none => .error (.transient "failed to parse response: unexpected content")

/-- A successful reply whose body does not matter. -/
def acknowledged (side : Side) (reply : HttpReply) : Except Error Unit := do
  let _ ← accepted side reply
  return ()

namespace Client

/-- The request of a call. -/
def request (c : Client) : Call → HttpRequest
  | .describe family => ⟨"GET", c.orchestrator.below ["task-definitions", family], none⟩
  | .register candidate =>
    ⟨"POST", c.orchestrator.below ["task-definitions"], some candidate.toJson⟩
  | .describeBinding cluster service =>
    ⟨"GET", c.orchestrator.below ["clusters", cluster, "services", service], none⟩
  | .rebind cluster service expected desired =>
    ⟨"PUT",
      c.orchestrator.below ["clusters", cluster, "services", service, "task-definition"],
      some (.object [("expected", expected.toJson), ("desired", desired.toJson)])⟩
  | .patchAlarm alarm threshold =>
    ⟨"PUT", c.metrics.below ["alarms", alarm, "threshold"],
      some (.object [("threshold", .float threshold)])⟩

/-- The answer that a reply gives to a call. -/
def answer (reply : HttpReply) : (call : Call) → call.Reply
  | .describe _ => readAnswer .orchestrator Allocation.read reply
  | .register _ => readAnswer .orchestrator Revision.read reply
  | .describeBinding .. => readAnswer .orchestrator Binding.read reply
  | .rebind .. => acknowledged .orchestrator reply
  | .patchAlarm .. => acknowledged .metrics reply

/-- The request that publishes datapoints. -/
def publishRequest (c : Client) (metricNamespace : String) (datapoints : List Datapoint) :
    HttpRequest :=
  ⟨"POST", c.metrics.below ["metrics", metricNamespace],
    some (.object [("metricData", .array (datapoints.map Datapoint.toJson))])⟩

/-- Make a call over a transport. -/
def perform {σ : Type} (c : Client) (exchange : σ → HttpRequest → HttpReply × σ) (world : σ)
    (call : Call) : call.Reply × σ :=
  let (reply, world) := exchange world (c.request call)
  (answer reply call, world)

/-- Publish datapoints over a transport. -/
def publish {σ : Type} (c : Client) (exchange : σ → HttpRequest → HttpReply × σ) (world : σ)
    (metricNamespace : String) (datapoints : List Datapoint) : Except Error Unit × σ :=
  let (reply, world) := exchange world (c.publishRequest metricNamespace datapoints)
  (acknowledged .metrics reply, world)

end Client
end Headroom.Gateway
