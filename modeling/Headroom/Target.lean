import Headroom.Json.Members

/-!
The service whose resources are looked after, and the names under which its
metrics and its alarm are kept.
-/
namespace Headroom

structure Target where
  cluster : String
  service : String
  container : String
  /-- The family of task definitions that holds the service's allocations. -/
  family : String
  /-- The namespace under which its metrics are published. -/
  metricNamespace : String
  /-- The alarm that watches it. -/
  alarm : String
  deriving DecidableEq, Repr, Inhabited

def Target.toJson (t : Target) : Json :=
  .object
    [("cluster_name", .string t.cluster), ("service_name", .string t.service),
      ("container_name", .string t.container), ("family", .string t.family),
      ("namespace", .string t.metricNamespace), ("alarm_name", .string t.alarm)]

def Target.read : Json.Reader Target := fun tree => do
  let m ← Json.Members.of?
    ["cluster_name", "service_name", "container_name", "family", "namespace", "alarm_name"] tree
  let cluster ← m.required "cluster_name" .string
  let service ← m.required "service_name" .string
  let container ← m.required "container_name" .string
  let family ← m.required "family" .string
  let metricNamespace ← m.required "namespace" .string
  let alarm ← m.required "alarm_name" .string
  return { cluster, service, container, family, metricNamespace, alarm }

end Headroom
