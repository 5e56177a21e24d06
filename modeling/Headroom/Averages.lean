import Headroom.Error
import Headroom.Metric
import Headroom.Sample

/-!
The means of a batch. Records that are no samples are left out and counted; a
batch without a sample is an error, so no mean is ever taken of nothing.
-/
namespace Headroom.Averages

/-- What has been seen of a batch so far. -/
structure Tally where
  cpu : Float := 0
  memory : Float := 0
  samples : Nat := 0
  skipped : Nat := 0
  /-- Cluster and service of the last sample. -/
  origin : Option (String × String) := none
  newest : Int64 := Int64.minValue
  deriving DecidableEq, Repr

/-- Take one more record. -/
def Tally.add (t : Tally) (record : Record) : Tally :=
  match Sample.ofRecord record with
  | .ok sample =>
    { t with
      cpu := t.cpu + sample.cpu
      memory := t.memory + sample.memory
      samples := t.samples + 1
      origin := some (sample.cluster, sample.service)
      newest := if t.newest < sample.timestamp then sample.timestamp else t.newest }
  | .error _ => { t with skipped := t.skipped + 1 }

/-- The unit written on every datapoint. -/
def unit : String := "None"

/-- The datapoints of a tally, under the name of the configured container. -/
def Tally.averages (t : Tally) (container : String) : Except Error Averages :=
  match t.origin with
  | none => .error (.emptyBatch t.skipped)
  | some (cluster, service) =>
    let dimensions := Dimension.ofContainer cluster service container
    let mean (metric : Metric) (sum : Float) : Datapoint :=
      { metric, dimensions, value := sum / Float.ofNat t.samples, unit, timestamp := t.newest }
    .ok
      { cpu := mean .cpuUtilized t.cpu
        memory := mean .memoryUtilized t.memory
        samples := t.samples
        skipped := t.skipped }

/-- The means of a batch of records, in the order of delivery. -/
def ofRecords (container : String) (records : List Record) : Except Error Averages :=
  (records.foldl Tally.add {}).averages container

end Headroom.Averages
