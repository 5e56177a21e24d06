import Headroom.Alarm

/-!
A metrics backend: the datapoints that it was sent, and the alarms that it holds.
-/
namespace Headroom

structure Monitor where
  /-- Every datapoint with the namespace it was published under, in order. -/
  published : List (String × Datapoint) := []
  alarm? : String → Option Alarm := fun _ => none

instance : Inhabited Monitor := ⟨{}⟩

namespace Monitor

/-- Put an alarm in place, whatever was there. -/
def insert (m : Monitor) (a : Alarm) : Monitor :=
  { m with alarm? := fun name => if name = a.name then some a else m.alarm? name }

/-- Take all datapoints or none. -/
def publish (m : Monitor) (metricNamespace : String) (datapoints : List Datapoint) :
    Except Error Unit × Monitor :=
  if metricNamespace = "" then (.error (.publish "namespace must not be empty"), m)
  else (.ok (), { m with published := m.published ++ datapoints.map (metricNamespace, ·) })

/-- Set the threshold of an alarm. -/
def patchAlarm (m : Monitor) (name : String) (threshold : Float) : Except Error Unit × Monitor :=
  match m.alarm? name with
  | none => (.error (.notFound ("alarm " ++ name)), m)
  | some alarm =>
    (.ok (), { m with alarm? := fun other =>
      if other = name then some { alarm with threshold } else m.alarm? other })

end Monitor
end Headroom
