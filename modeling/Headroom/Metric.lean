import Headroom.Json.Members

/-!
Published utilization metrics: the mean of one measured quantity over a batch,
with the dimensions that say where it was measured.
-/
namespace Headroom

/-- The measured quantities. -/
inductive Metric where
  | cpuUtilized
  | memoryUtilized
  deriving DecidableEq, Repr, Inhabited

def Metric.name : Metric → String
  | .cpuUtilized => "CpuUtilized"
  | .memoryUtilized => "MemoryUtilized"

def Metric.read : Json.Reader Metric :=
  .choice [("CpuUtilized", .cpuUtilized), ("MemoryUtilized", .memoryUtilized)]

structure Dimension where
  name : String
  value : String
  deriving DecidableEq, Repr, Inhabited

def Dimension.toJson (d : Dimension) : Json :=
  .object [("Name", .string d.name), ("Value", .string d.value)]

def Dimension.read : Json.Reader Dimension := fun tree => do
  let m ← Json.Members.of? ["Name", "Value"] tree
  let name ← m.required "Name" .string
  let value ← m.required "Value" .string
  return { name, value }

/-- The dimensions of everything measured for one container of a service. -/
def Dimension.ofContainer (cluster service container : String) : List Dimension :=
  [⟨"ClusterName", cluster⟩, ⟨"ServiceName", service⟩, ⟨"ContainerName", container⟩]

/-- One value for the metrics backend; the time is in milliseconds since 1970. -/
structure Datapoint where
  metric : Metric
  dimensions : List Dimension
  value : Float
  unit : String
  timestamp : Int64
  deriving DecidableEq, Repr

def Datapoint.toJson (d : Datapoint) : Json :=
  .object
    [("MetricName", .string d.metric.name),
      ("Dimensions", .array (d.dimensions.map Dimension.toJson)),
      ("Value", .float d.value), ("Unit", .string d.unit),
      ("Timestamp", .integer d.timestamp.toInt)]

def Datapoint.read : Json.Reader Datapoint := fun tree => do
  let m ← Json.Members.of? ["MetricName", "Dimensions", "Value", "Unit", "Timestamp"] tree
  let metric ← m.required "MetricName" Metric.read
  let dimensions ← m.required "Dimensions" (.list Dimension.read)
  let value ← m.required "Value" .float
  let unit ← m.required "Unit" .string
  let timestamp ← m.required "Timestamp" .int64
  return { metric, dimensions, value, unit, timestamp }

/-- What one batch of records comes to. -/
structure Averages where
  cpu : Datapoint
  memory : Datapoint
  /-- How many records entered the means. -/
  samples : Nat
  /-- How many records were left out as invalid. -/
  skipped : Nat
  deriving DecidableEq, Repr

/-- The datapoints in the order in which they are published. -/
def Averages.datapoints (a : Averages) : List Datapoint := [a.cpu, a.memory]

def Averages.toJson (a : Averages) : Json :=
  .object
    [("cpu", a.cpu.toJson), ("memory", a.memory.toJson), ("sample_count", .count a.samples),
      ("skipped_count", .count a.skipped)]

def Averages.read : Json.Reader Averages := fun tree => do
  let m ← Json.Members.of? ["cpu", "memory", "sample_count", "skipped_count"] tree
  let cpu ← m.required "cpu" Datapoint.read
  let memory ← m.required "memory" Datapoint.read
  let samples ← m.required "sample_count" .uint64
  let skipped ← m.required "skipped_count" .uint64
  return { cpu, memory, samples, skipped }

end Headroom
