import Headroom.Allocation.Basic
import Headroom.Error
import Headroom.Metric

/-!
The calls that a scaling cycle makes to its collaborators: the registry of
allocations, the orchestrator that binds services to them, and the backend that
holds alarms. Each call has an answer of its own kind.
-/
namespace Headroom

/-- The operations of the collaborators. -/
inductive Operation where
  | describeBinding | describe | register | rebind | patchAlarm | publish
  deriving DecidableEq, Repr, Inhabited

def Operation.name : Operation → String
  | .describeBinding => "describe_binding"
  | .describe => "describe"
  | .register => "register"
  | .rebind => "rebind"
  | .patchAlarm => "patch_alarm"
  | .publish => "publish"

/-- A call of a scaling cycle. -/
inductive Call where
  | describeBinding (cluster service : String)
  | describe (family : String)
  | register (candidate : Allocation)
  | rebind (cluster service : String) (expected desired : Revision)
  | patchAlarm (alarm : String) (threshold : Float)
  deriving DecidableEq, Repr

def Call.operation : Call → Operation
  | .describeBinding .. => .describeBinding
  | .describe .. => .describe
  | .register .. => .register
  | .rebind .. => .rebind
  | .patchAlarm .. => .patchAlarm

/-- What a call that succeeds answers with. -/
@[reducible] def Call.Answer : Call → Type
  | .describeBinding .. => Binding
  | .describe .. => Allocation
  | .register .. => Revision
  | .rebind .. => Unit
  | .patchAlarm .. => Unit

/-- The answer to a call, or why there is none. -/
abbrev Call.Reply (call : Call) : Type := Except Error call.Answer

end Headroom
