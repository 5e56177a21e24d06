import Headroom.Collaborator
import Headroom.Stores.Fleet
import Headroom.Stores.Monitor
import Headroom.Stores.Registry

/-!
The three collaborators as stores in memory, and the effect of a call on them.
-/
namespace Headroom

structure Stores where
  registry : Registry := {}
  fleet : Fleet := {}
  monitor : Monitor := {}
  deriving Inhabited

namespace Stores

/-- Make a call: its reply, and the stores after it. -/
def perform (s : Stores) : (call : Call) → call.Reply × Stores
  | .describeBinding cluster service => (s.fleet.describe cluster service, s)
  | .describe family => (s.registry.describe family, s)
  | .register candidate =>
    let (reply, registry) := s.registry.register candidate
    (reply, { s with registry })
  | .rebind cluster service expected desired =>
    let (reply, fleet) := s.fleet.rebind cluster service expected desired
    (reply, { s with fleet })
  | .patchAlarm alarm threshold =>
    let (reply, monitor) := s.monitor.patchAlarm alarm threshold
    (reply, { s with monitor })

/-- Publish datapoints. -/
def publish (s : Stores) (metricNamespace : String) (datapoints : List Datapoint) :
    Except Error Unit × Stores :=
  let (reply, monitor) := s.monitor.publish metricNamespace datapoints
  (reply, { s with monitor })

end Stores
end Headroom
