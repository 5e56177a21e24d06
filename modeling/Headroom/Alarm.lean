import Headroom.Allocation.Basic
import Headroom.Decimal.Shortest
import Headroom.Error
import Headroom.Metric

/-!
Alarms on a metric, the states that they report, and the rule that derives an
alarm's threshold from the memory of the allocation it watches.
-/
namespace Headroom

/-- How an alarm compares the metric with its threshold. -/
inductive Comparison where
  | greater | greaterOrEqual | less | lessOrEqual
  deriving DecidableEq, Repr, Inhabited

def Comparison.name : Comparison → String
  | .greater => "GreaterThanThreshold"
  | .greaterOrEqual => "GreaterThanOrEqualToThreshold"
  | .less => "LessThanThreshold"
  | .lessOrEqual => "LessThanOrEqualToThreshold"

def Comparison.read : Json.Reader Comparison :=
  .choice <| [Comparison.greater, .greaterOrEqual, .less, .lessOrEqual].map fun c => (c.name, c)

structure Alarm where
  name : String
  metric : Metric
  metricNamespace : String
  dimensions : List Dimension
  comparison : Comparison
  threshold : Float
  deriving DecidableEq, Repr

def Alarm.toJson (a : Alarm) : Json :=
  .object
    [("alarmName", .string a.name), ("metricName", .string a.metric.name),
      ("namespace", .string a.metricNamespace),
      ("dimensions", .array (a.dimensions.map Dimension.toJson)),
      ("comparisonOperator", .string a.comparison.name), ("threshold", .float a.threshold)]

def Alarm.read : Json.Reader Alarm := fun tree => do
  let m ← Json.Members.of?
    ["alarmName", "metricName", "namespace", "dimensions", "comparisonOperator", "threshold"] tree
  let name ← m.required "alarmName" .string
  let metric ← m.required "metricName" Metric.read
  let metricNamespace ← m.required "namespace" .string
  let dimensions ← m.required "dimensions" (.list Dimension.read)
  let comparison ← m.required "comparisonOperator" Comparison.read
  let threshold ← m.required "threshold" .float
  return { name, metric, metricNamespace, dimensions, comparison, threshold }

/-- The state an alarm reports. -/
inductive AlarmState where
  | alarm | ok | insufficientData
  deriving DecidableEq, Repr, Inhabited

def AlarmState.name : AlarmState → String
  | .alarm => "ALARM"
  | .ok => "OK"
  | .insufficientData => "INSUFFICIENT_DATA"

def AlarmState.all : List AlarmState := [.alarm, .ok, .insufficientData]

def AlarmState.ofName? (name : String) : Option AlarmState :=
  AlarmState.all.find? (·.name == name)

def AlarmState.read : Json.Reader AlarmState := .choice <| AlarmState.all.map fun s => (s.name, s)

/-- The share of the allotted memory at which the alarm goes off. -/
structure ThresholdPolicy where
  ratio : Float := 0.8
  deriving DecidableEq, Repr

namespace ThresholdPolicy

def validate (p : ThresholdPolicy) : Except Error Unit :=
  if p.ratio.isFinite ∧ p.ratio > 0 then .ok ()
  else .error (.validation
    ("alarm utilization ratio must be positive, got " ++ Decimal.plain p.ratio))

/-- The threshold for an allotment of memory. -/
def threshold (p : ThresholdPolicy) (memory : UInt32) : Float := memory.toFloat * p.ratio

def toJson (p : ThresholdPolicy) : Json := .object [("utilization_ratio", .float p.ratio)]

def read : Json.Reader ThresholdPolicy := fun tree => do
  let m ← Json.Members.of? ["utilization_ratio"] tree
  let ratio ← m.defaulted "utilization_ratio" ({} : ThresholdPolicy).ratio .float
  return { ratio }

end ThresholdPolicy
end Headroom
