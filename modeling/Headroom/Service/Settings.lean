import Headroom.Configuration.Reader
import Headroom.Configuration.Sources
import Headroom.Gateway.Client
import Headroom.Pipeline
import Headroom.Retry
import Headroom.Sizing.Policy
import Headroom.Stores.Basic
import Headroom.Text.Blank

/-!
The settings of the service, and the collaborators that they name. Settings come
from plain variables of old, then from a file, then from the variables that begin
with `SCALER_`; what comes later counts.
-/
namespace Headroom.Service

open Headroom.Configuration (Value Reader required defaulted group?)

/-- What stands behind the service. -/
inductive Backend where
  /-- Stores in memory that hold one service at the start. -/
  | memory
  /-- Gateways over HTTP. -/
  | http
  deriving DecidableEq, Repr, Inhabited

def Backend.name : Backend → String
  | .memory => "memory"
  | .http => "http"

/-- The allocation that the stores in memory hold at the start. -/
structure Seed where
  cpu : UInt32 := 256
  memory : UInt32 := 512
  image : Option String := none
  deriving DecidableEq, Repr

structure Settings where
  cluster : String
  service : String
  container : String
  family : String
  metricNamespace : String := "ECS/ContainerInsights"
  alarm : Option String := none
  apiPort : UInt16 := 8080
  backend : Backend := .memory
  gateways : Option Gateway.Settings := none
  seed : Seed := {}
  sizing : Sizing.Policy := {}
  thresholds : ThresholdPolicy := {}
  retry : Retry.Settings := {}
  /-- In milliseconds. -/
  publishTimeout : Nat := 10000
  /-- The most bytes that a batch may unpack to. -/
  unpackLimit : Option Nat := none
  deriving DecidableEq, Repr

def Backend.read : Reader Backend := .choice [("memory", .memory), ("http", .http)]

def readPlatform : Reader Sizing.Platform :=
  .choice [("unconstrained", .unconstrained), ("fargate", .fargate)]

/-- The step of a kind. Its settings are kept as they were written until the kind is
known, so here nothing is converted, except a whole number into a float. -/
def readStepOf (kind : String) (settings : List (String × Value)) : Option Sizing.Step :=
  match kind with
  | "fixed" =>
    match settings.lookup "memory_units" with
    | some (.integer memory) =>
      if 0 ≤ memory ∧ memory < UInt32.size then some (.plus memory.toNat.toUInt32) else none
    | _ => none
  | "factor" =>
    match settings.lookup "factor" with
    | some (.integer factor) => some (.times (Float.ofInt factor))
    | some (.float factor) => some (.times factor)
    | _ => none
  | _ => none

/-- A table with a member `kind`, or a list of the kind and its one setting. -/
def readStep : Reader Sizing.Step
  | .table members =>
    match members.lookup "kind" with
    | some (.text kind) => readStepOf kind members
    | _ => none
  | .list [.text kind, value] => readStepOf kind [("memory_units", value), ("factor", value)]
  | _ => none

def readSizing : Reader Sizing.Policy := fun value => do
  let usual : Sizing.Policy := {}
  let s ← group? ["step", "max_memory_units", "cpu_follows_memory", "platform"] value
  let step ← defaulted s "step" usual.step readStep
  let maxMemory ← defaulted s "max_memory_units" usual.maxMemory .uint32
  let cpuFollowsMemory ← defaulted s "cpu_follows_memory" usual.cpuFollowsMemory .bool
  let platform ← defaulted s "platform" usual.platform readPlatform
  return { step, maxMemory, cpuFollowsMemory, platform }

def readThresholds : Reader ThresholdPolicy := fun value => do
  let s ← group? ["utilization_ratio"] value
  let ratio ← defaulted s "utilization_ratio" ({} : ThresholdPolicy).ratio .float
  return { ratio }

def readRetry : Reader Retry.Settings := fun value => do
  let usual : Retry.Settings := {}
  let s ← group?
    ["max_attempts", "initial_backoff_ms", "max_backoff_ms", "call_timeout_ms"] value
  let maxAttempts ← defaulted s "max_attempts" usual.maxAttempts (.countBelow UInt32.size)
  let initialBackoff ← defaulted s "initial_backoff_ms" usual.initialBackoff .count
  let maxBackoff ← defaulted s "max_backoff_ms" usual.maxBackoff .count
  let callTimeout ← defaulted s "call_timeout_ms" usual.callTimeout .count
  return { maxAttempts, initialBackoff, maxBackoff, callTimeout }

def Seed.read : Reader Seed := fun value => do
  let usual : Seed := {}
  let s ← group? ["cpu_units", "memory_units", "image"] value
  let cpu ← defaulted s "cpu_units" usual.cpu .uint32
  let memory ← defaulted s "memory_units" usual.memory .uint32
  let image ← defaulted s "image" usual.image (.optional .text)
  return { cpu, memory, image }

def readGateways : Reader Gateway.Settings := fun value => do
  let s ← group? ["orchestrator_url", "metrics_url", "request_timeout_secs"] value
  let orchestratorUrl ← required s "orchestrator_url" .text
  let metricsUrl ← required s "metrics_url" .text
  let requestTimeoutSeconds ← defaulted s "request_timeout_secs" 10 .count
  return { orchestratorUrl, metricsUrl, requestTimeoutSeconds }

def Settings.read : Reader Settings := fun value => do
  let s := value.members
  let cluster ← required s "cluster_name" .text
  let service ← required s "service_name" .text
  let container ← required s "container_name" .text
  let family ← required s "family" .text
  let usual : Settings := { cluster, service, container, family }
  let metricNamespace ← defaulted s "namespace" usual.metricNamespace .text
  let alarm ← defaulted s "alarm_name" usual.alarm (.optional .text)
  let apiPort ← defaulted s "api_port" usual.apiPort .uint16
  let backend ← defaulted s "backend" usual.backend Backend.read
  let gateways ← defaulted s "http" usual.gateways (.optional readGateways)
  let seed ← defaulted s "seed" usual.seed Seed.read
  let sizing ← defaulted s "scaling" usual.sizing readSizing
  let thresholds ← defaulted s "alarm" usual.thresholds readThresholds
  let retry ← defaulted s "retry" usual.retry readRetry
  let publishTimeout ← defaulted s "publish_timeout_ms" usual.publishTimeout .count
  let unpackLimit ← defaulted s "max_decompressed_bytes" usual.unpackLimit (.optional .count)
  return {
    cluster, service, container, family, metricNamespace, alarm, apiPort, backend, gateways, seed,
    sizing, thresholds, retry, publishTimeout, unpackLimit }

inductive SettingsFault where
  /-- A source of settings cannot be read. -/
  | unreadable
  /-- A setting is missing, or has no value of its type. -/
  | invalid
  /-- A name is blank. -/
  | blank (setting : String)
  | noGateways
  | noAttempts
  | emptySeed
  | sizing (cause : Error)
  | thresholds (cause : Error)
  /-- An address of a gateway is no base URL. -/
  | gateway (cause : Error)
  deriving DecidableEq, Repr

namespace SettingsFault

def message : SettingsFault → String
  | unreadable => "failed to read configuration"
  | invalid => "invalid configuration"
  | blank setting => setting ++ " must not be empty"
  | noGateways => "backend 'http' requires http.orchestrator_url and http.metrics_url"
  | noAttempts => "retry.max_attempts must be at least 1"
  | emptySeed => "seed cpu_units and memory_units must be positive"
  | sizing _ => "invalid scaling policy"
  | thresholds _ => "invalid alarm policy"
  | gateway _ => "failed to create gateway client"

/-- The failure underneath, if there is one. -/
def cause? : SettingsFault → Option Error
  | sizing cause | thresholds cause | gateway cause => some cause
  | _ => none

end SettingsFault

namespace Settings

/-- The names that must not be blank. -/
def names (s : Settings) : List (String × String) :=
  [("cluster_name", s.cluster), ("service_name", s.service), ("container_name", s.container),
    ("family", s.family), ("namespace", s.metricNamespace)]

/-- Refuse settings that make no sense together. -/
def validate (s : Settings) : Except SettingsFault Unit := do
  match s.names.find? fun name => Text.trim name.2 == "" with
  | some (setting, _) => throw (.blank setting)
  | none => pure ()
  if s.backend = .http ∧ s.gateways.isNone then throw .noGateways
  if s.retry.maxAttempts = 0 then throw .noAttempts
  if s.seed.cpu = 0 ∨ s.seed.memory = 0 then throw .emptySeed
  s.sizing.validate.mapError .sizing
  s.thresholds.validate.mapError .thresholds

/-- Variables without the usual beginning, with the settings they are for. -/
def plainVariables : List (String × String) :=
  [("CONTAINER_NAME", "container_name"), ("ECS_CLUSTER_NAME", "cluster_name"),
    ("ECS_SERVICE_NAME", "service_name"), ("ECS_CONTAINER_NAME", "container_name"),
    ("TASK_DEFINITION_FAMILY", "family"), ("METRIC_NAMESPACE", "namespace")]

/-- Read settings from a file, if there is one, and the environment. -/
def load (file : Option Configuration.File) (environment : List (String × String)) :
    Except SettingsFault Settings := do
  let fromFile ←
    match file with
    | none => pure []
    | some file =>
      match file.table? with
      | some members => pure members
      | none => throw .unreadable
  let sources :=
    [Configuration.fromNames plainVariables environment, fromFile,
      Configuration.fromEnvironment "scaler_" environment]
  match Settings.read (sources.foldl Value.layer (.table [])) with
  | none => throw .invalid
  | some settings =>
    settings.validate
    return settings

/-- The service that is looked after. -/
def target (s : Settings) : Target :=
  { cluster := s.cluster
    service := s.service
    container := s.container
    family := s.family
    metricNamespace := s.metricNamespace
    alarm := s.alarm.getD (s.service ++ "-memory-high") }

def pipeline (s : Settings) : Pipeline :=
  { target := s.target, limit := s.unpackLimit, publishTimeout := s.publishTimeout }

/-- The allocation that the service has at the start. -/
def seedAllocation (s : Settings) : Allocation :=
  { family := s.family
    number := 1
    cpu := s.seed.cpu
    memory := s.seed.memory
    containers :=
      [{ name := s.container, image := s.seed.image, memory := some s.seed.memory }] }

/-- The alarm that watches the service at the start. -/
def seedAlarm (s : Settings) : Alarm :=
  let target := s.target
  { name := target.alarm
    metric := .memoryUtilized
    metricNamespace := target.metricNamespace
    dimensions := Dimension.ofContainer target.cluster target.service target.container
    comparison := .greater
    threshold := s.thresholds.threshold s.seed.memory }

/-- Stores in memory that hold one service, bound to its first allocation. -/
def stores (s : Settings) : Stores :=
  let (active, registry) := ({} : Registry).seed s.seedAllocation
  let target := s.target
  let binding : Binding :=
    { cluster := target.cluster, service := target.service, container := target.container, active }
  { registry
    fleet := ({} : Fleet).insert binding
    monitor := ({} : Monitor).insert s.seedAlarm }

/-- The gateways of settings that have been validated. -/
def client (s : Settings) : Except SettingsFault Gateway.Client :=
  match s.gateways with
  | none => .error .noGateways
  | some gateways => (Gateway.Client.of gateways).mapError .gateway

end Settings
end Headroom.Service
