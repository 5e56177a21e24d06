import Headroom.Controller
import Headroom.LogBatch.Body
import Headroom.Service.Answer
import Headroom.Service.Settings

/-!
The service over HTTP. Every POST is one log batch or one notification, handled to
its end before the answer is given; the rest tells how the service does. How the
collaborators are reached is a parameter.
-/
namespace Headroom.Service

/-- The resources that the service has. -/
inductive Route where
  | logBatches | notifications | health | readiness | metrics
  deriving DecidableEq, Repr

namespace Route

def path : Route → String
  | logBatches => "/v1/log-batches"
  | notifications => "/v1/alarm-notifications"
  | health => "/healthz"
  | readiness => "/readyz"
  | metrics => "/metrics"

def all : List Route := [logBatches, notifications, health, readiness, metrics]

/-- The resource of a request target; a query has no bearing. -/
def ofTarget? (target : String) : Option Route :=
  let path := String.ofList (target.toList.takeWhile fun c => c != '?' && c != '#')
  all.find? (·.path == path)

/-- Whether a resource takes posts; the others can be read. -/
def takesPosts : Route → Bool
  | logBatches | notifications => true
  | _ => false

/-- The methods that a resource answers to. -/
def methods (r : Route) : List String := if r.takesPosts then ["POST"] else ["GET", "HEAD"]

end Route

/-- A request as it comes in. -/
structure Incoming where
  method : String
  target : String
  contentType : Option String := none
  body : List UInt8 := []
  deriving DecidableEq, Repr

/-- The answer to a request. A body that is no JSON is not part of it: the texts of
refusals, and the readings of the counters. -/
structure Outgoing where
  status : Nat
  body : Option Json := none
  deriving Repr, Inhabited

/-- The characters of names in a media type. -/
def isTokenChar (c : Char) : Bool :=
  c.isAlphanum ||
    c ∈ ['!', '#', '$', '%', '&', '\x27', '*', '+', '-', '.', '^', '_', '\x60', '|', '~']

/-- Go past the parameters of a media type, from behind a semicolon. -/
def parametersEnd : (fuel : Nat) → List Char → Bool
  | 0, _ => false
  | fuel + 1, text =>
    match text.dropWhile (· == ' ') with
    | [] => true
    | text =>
      let (name, rest) := text.span isTokenChar
      match name, rest with
      | _ :: _, '=' :: '\x22' :: rest =>
        let (value, rest) := rest.span fun c => c != '\x22' && 0x20 ≤ c.toNat && c.toNat < 0x7F
        match value, rest with
        | _ :: _, '\x22' :: rest =>
          match rest.dropWhile (· == ' ') with
          | [] => true
          | ';' :: rest => parametersEnd fuel rest
          | _ => false
        | _, _ => false
      | _ :: _, '=' :: rest =>
        let (value, rest) := rest.span isTokenChar
        match value, rest with
        | _, [] => true
        | _ :: _, ';' :: rest => parametersEnd fuel rest
        | _, _ => false
      | _, _ => false

/-- The subtype of a media type, and the part of it behind the last plus. -/
def splitSuffix (subtype : List Char) : List Char × Option (List Char) :=
  match subtype with
  | [] => ([], none)
  | first :: rest =>
    let suffix := (rest.reverse.takeWhile (· != '+')).reverse
    if suffix.length < rest.length then
      (first :: rest.take (rest.length - suffix.length - 1), some suffix)
    else (subtype, none)

/-- Whether a media type is JSON: the type itself, or any application type that
builds on it. -/
def isJsonType (mediaType : String) : Bool :=
  let (kind, rest) := mediaType.toList.span isTokenChar
  match rest with
  | '/' :: rest =>
    let (subtype, rest) := rest.span isTokenChar
    let (name, suffix) := splitSuffix (subtype.map Char.toLower)
    let wellFormed :=
      match rest with
      | [] => true
      | ';' :: rest => parametersEnd (rest.length + 1) rest
      | _ => false
    wellFormed && kind.map Char.toLower == "application".toList &&
      (name == "json".toList || suffix == some "json".toList)
  | _ => false

/-- How the collaborators are reached, through a world that remembers. -/
structure Collaborators (σ : Type) where
  perform : σ → (call : Call) → call.Reply × σ
  publish : σ → String → List Datapoint → Except Error Unit × σ

/-- The collaborators as stores in memory. -/
def Collaborators.stores : Collaborators Stores :=
  { perform := Stores.perform, publish := Stores.publish }

/-- The collaborators behind gateways, over a transport. -/
def Collaborators.gateways {σ : Type} (client : Gateway.Client)
    (exchange : σ → Gateway.HttpRequest → Gateway.HttpReply × σ) : Collaborators σ :=
  { perform := client.perform exchange, publish := client.publish exchange }

/-- A service between two requests. -/
structure State (σ : Type) where
  rules : Cycle.Rules
  pipeline : Pipeline
  health : Health
  world : σ

/-- A service as its settings describe it. -/
def State.ofSettings {σ : Type} (s : Settings) (health : Health) (world : σ) : State σ :=
  { rules := { sizing := s.sizing, thresholds := s.thresholds, retry := s.retry }
    pipeline := s.pipeline
    health
    world }

/-- The most bytes that a body may have. -/
def bodyLimit : Nat := 2 * 1024 * 1024

def batchStatus : LogBatch.Outcome → Nat
  | .published _ | .skipped => 200
  | .rejected _ => 422
  | .publishFailed .. => 502

/-- A cycle that failed before it began was asked for wrongly. -/
def cycleStatus (r : Cycle.Report) : Nat :=
  match r.outcome with
  | .failed .idle _ _ => 422
  | _ => if r.isSuccess then 200 else 502

namespace State

variable {σ : Type}

/-- Handle the log batch in a body. Where the handling breaks off there is no answer. -/
def postBatch (c : Collaborators σ) (s : State σ) (q : Incoming) : Option Outgoing × State σ :=
  if ¬q.contentType.any isJsonType then (some ⟨415, none⟩, s)
  else if bodyLimit < q.body.length then (some ⟨413, none⟩, s)
  else
    match LogBatch.Body.read q.body with
    | .error .malformed => (some ⟨400, none⟩, s)
    | .error .misshapen => (some ⟨422, none⟩, s)
    | .ok delivery =>
      let handled := s.pipeline.handle c.publish s.world delivery
      (handled.outcome.map fun outcome =>
          ⟨batchStatus outcome, some (BatchAnswer.ofOutcome outcome).toJson⟩,
        { s with
          health := handled.outcome.elim s.health s.health.recordBatch
          world := handled.world })

/-- Handle the notification in a body, which may be any text. -/
def postNotification (c : Collaborators σ) (s : State σ) (q : Incoming) : Outgoing × State σ :=
  if bodyLimit < q.body.length then (⟨413, none⟩, s)
  else
    match String.fromUTF8? ⟨q.body.toArray⟩ with
    | none => (⟨400, none⟩, s)
    | some text =>
      let finished := Controller.handle s.rules c.perform s.pipeline.target s.world text
      (⟨cycleStatus finished.report, some (CycleAnswer.ofReport finished.report).toJson⟩,
        { s with
          health := s.health.recordCycle finished.report.outcome
          world := finished.world })

/-- Tell about the service. -/
def tell (s : State σ) : Route → Outgoing
  | .health =>
    ⟨if s.health.status.isOperational then 200 else 503,
      some (HealthAnswer.ofHealth s.health).toJson⟩
  | .readiness =>
    let answer := ReadinessAnswer.ofHealth s.health
    ⟨if answer.ready then 200 else 503, some answer.toJson⟩
  | _ => ⟨200, none⟩

/-- Answer one request; `none` when the connection is closed without an answer. -/
def respond (c : Collaborators σ) (s : State σ) (q : Incoming) : Option Outgoing × State σ :=
  match Route.ofTarget? q.target with
  | none => (some ⟨404, none⟩, s)
  | some route =>
    if q.method ∉ route.methods then (some ⟨405, none⟩, s)
    else
      match route with
      | .logBatches => s.postBatch c q
      | .notifications =>
        let (answer, s) := s.postNotification c q
        (some answer, s)
      | route =>
        let answer := s.tell route
        (some (if q.method = "HEAD" then { answer with body := none } else answer), s)

/-- Answer requests one after the other. -/
def respondAll (c : Collaborators σ) (s : State σ) :
    List Incoming → List (Option Outgoing) × State σ
  | [] => ([], s)
  | q :: rest =>
    let (answer, s) := s.respond c q
    let (answers, s) := s.respondAll c rest
    (answer :: answers, s)

end State
end Headroom.Service
