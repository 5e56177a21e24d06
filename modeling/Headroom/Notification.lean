import Headroom.Alarm
import Headroom.Json.Raw
import Headroom.Target

/-!
Notifications that may ask for more resources. A notification is the message of
an alarm that changed its state, or a trigger that names what to scale; either
may come wrapped in the envelope of a fan-out topic.
-/
namespace Headroom

/-- What one scaling cycle is asked to do. -/
structure Request where
  cluster : String
  service : String
  container : String
  family : String
  alarm : String
  reason : Option String := none
  /-- The notification as it arrived. -/
  notification : String := ""
  deriving DecidableEq, Repr, Inhabited

namespace Request

/-- The request for the configured target itself. -/
def ofTarget (target : Target) (notification : String) : Request :=
  { cluster := target.cluster
    service := target.service
    container := target.container
    family := target.family
    alarm := target.alarm
    notification }

/-- Requests of one key are served one at a time. -/
def key (r : Request) : String := r.cluster ++ "/" ++ r.service ++ "/" ++ r.container

end Request

/-- A notification with the members that it may carry. -/
structure Notification where
  alarm : Option String := none
  state : Option AlarmState := none
  reason : Option String := none
  metric : Option String := none
  metricNamespace : Option String := none
  threshold : Option Float := none
  cluster : Option String := none
  service : Option String := none
  container : Option String := none
  family : Option String := none
  deriving DecidableEq, Repr, Inhabited

namespace Notification

/-- A trigger has no state and always asks for a cycle. -/
def asksToScale (n : Notification) : Bool :=
  match n.state with
  | none | some .alarm => true
  | some _ => false

/-- Whether a name is given and differs from the configured one. -/
def differs (given : Option String) (configured : String) : Bool :=
  given.any (· != configured)

/-- Whether the notification names something else than the configured target. -/
def retargets (n : Notification) (target : Target) : Bool :=
  differs n.cluster target.cluster || differs n.service target.service ||
    differs n.container target.container || differs n.family target.family

/-- The request that a notification makes: names that it gives go before those of
the configured target. The configured alarm watches the configured target only,
so a notification for another one must name an alarm of its own. -/
def request (n : Notification) (target : Target) (notification : String) :
    Except Error Request :=
  if n.alarm.isNone ∧ n.retargets target then
    .error (.validation
      ("trigger for another target must name its alarm (configured alarm '" ++ target.alarm ++
        "' watches " ++ target.cluster ++ "/" ++ target.service ++ ")"))
  else
    .ok
      { cluster := n.cluster.getD target.cluster
        service := n.service.getD target.service
        container := n.container.getD target.container
        family := n.family.getD target.family
        alarm := n.alarm.getD target.alarm
        reason := n.reason
        notification }

/-- The message inside the envelope of a fan-out topic; any other value is its own
message. A message that is a text is read as JSON. -/
def unwrap (value : Json) : Except Error Json :=
  match value.member? "Records" with
  | none => .ok value
  | some records =>
    match ((records.item? 0).bind (·.member? "Sns")).bind (·.member? "Message") with
    | none => .error (.validation "fan-out envelope has no Records[0].Sns.Message")
    | some (.string text) =>
      match Json.ofString? text with
      | some message => .ok message
      | none => .error (.validation "alarm message is not valid JSON: malformed text")
    | some message => .ok message

/-- The text of a member, if it is one. -/
def text? (message : Json) (member : String) : Option String :=
  (message.member? member).bind Json.string?

/-- The state that a message reports, if any. -/
def stateOf (message : Json) : Except Error (Option AlarmState) :=
  match text? message "NewStateValue" with
  | none => .ok none
  | some name =>
    match AlarmState.ofName? name with
    | some state => .ok (some state)
    | none => .error (.validation ("unknown alarm state '" ++ name ++ "'"))

/-- Read the message of a notification. -/
def ofMessage (message : Json) : Except Error Notification :=
  if message.isObject then do
    let state ← stateOf message
    let trigger := (message.member? "Trigger").getD .null
    let n : Notification :=
      { alarm := text? message "AlarmName"
        state
        reason := text? message "NewStateReason" <|> text? message "reason"
        metric := text? trigger "MetricName"
        metricNamespace := text? trigger "Namespace"
        threshold := (trigger.member? "Threshold").bind Json.float?
        cluster := text? message "clusterName"
        service := text? message "serviceName"
        container := text? message "containerName"
        family := text? message "family" }
    if n.alarm.isNone ∧ n.state.isNone ∧ n.cluster.isNone ∧ n.family.isNone then
      .error (.validation "notification is neither an alarm message nor a scaling trigger")
    else .ok n
  else .error (.validation "notification message must be a JSON object")

/-- Read a notification as it arrived. -/
def ofText (text : String) : Except Error Notification :=
  match Json.ofString? text with
  | none => .error (.validation "notification is not valid JSON: malformed text")
  | some value => unwrap value >>= ofMessage

end Notification
end Headroom
