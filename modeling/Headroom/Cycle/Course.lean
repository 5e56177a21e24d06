import Headroom.Notification
import Headroom.Retry
import Headroom.Sizing.Plan
import Headroom.Telemetry.Event

/-!
The course of one scaling cycle, one collaborator call at a time.

A cycle reads the binding of its service and the latest allocation of its family,
plans the next allocation, looks at the binding once more, registers the plan,
binds the service to the new revision if it is still bound to the one read first,
and last sets the alarm. Between two calls a cycle is a value: the call to make
next, with what earlier answers have brought. `Course.answer` takes the reply to
that call. Nothing here waits or calls, so any interleaving of cycles is a
sequence of such steps.
-/
namespace Headroom.Cycle

/-- The rules that a controller runs its cycles by. -/
structure Rules where
  sizing : Sizing.Policy := {}
  thresholds : ThresholdPolicy := {}
  retry : Retry.Settings := {}
  deriving DecidableEq, Repr

/-- The call that a cycle is at, with what it knows by then: the revision that the
service was first found bound to, and the candidate or the new revision. -/
inductive Stage where
  | readBinding
  | readAllocation (expected : Revision)
  | confirmBinding (expected : Revision) (candidate : Allocation)
  | register (expected : Revision) (candidate : Allocation)
  | rebind (expected new : Revision) (memory : UInt32)
  /-- The rebind met another binding, which may be its own from a lost answer. -/
  | inspectBinding (expected new : Revision) (memory : UInt32) (conflict : String)
  | adjustAlarm (expected new : Revision) (memory : UInt32) (threshold : Float)
  deriving DecidableEq, Repr

/-- How many stages may follow, with this one. -/
def Stage.rank : Stage → Nat
  | .readBinding => 7
  | .readAllocation .. => 6
  | .confirmBinding .. => 5
  | .register .. => 4
  | .rebind .. => 3
  | .inspectBinding .. => 2
  | .adjustAlarm .. => 1

/-- The call of a stage. -/
@[reducible] def Stage.call (r : Request) : Stage → Call
  | .readBinding | .confirmBinding .. | .inspectBinding .. => .describeBinding r.cluster r.service
  | .readAllocation .. => .describe r.family
  | .register _ candidate => .register candidate
  | .rebind expected new _ => .rebind r.cluster r.service expected new
  | .adjustAlarm _ _ _ threshold => .patchAlarm r.alarm threshold

/-- What follows a call once its outcome stands: the states entered, what is to be
told besides, and the next stage or the end. -/
structure Move where
  entered : List State := []
  told : List Event := []
  next : Stage ⊕ Outcome
  deriving DecidableEq, Repr

/-- End in an error that occurred in a state. -/
def Move.fail (state : State) (error : Error) (orphan : Option Revision) : Move :=
  { entered := [.error], next := .inr (.failed state error orphan) }

/-- Go on to the alarm after the service has been bound. -/
def Move.bound (rules : Rules) (expected new : Revision) (memory : UInt32) : Move :=
  { entered := [.adjustingAlarm]
    told := [.bound new.number]
    next := .inl (.adjustAlarm expected new memory (rules.thresholds.threshold memory)) }

/-- Plan from the latest allocation. -/
def Move.plan (rules : Rules) (container : String) (expected : Revision) (current : Allocation) :
    Move :=
  match rules.sizing.plan current container with
  | .ok (.scaleTo candidate) =>
    { entered := [.computing, .registering], next := .inl (.confirmBinding expected candidate) }
  | .ok (.saturated memory ceiling) =>
    { entered := [.computing, .idle]
      next := .inr (.saturated current.revision memory ceiling) }
  | .error error =>
    { entered := [.computing, .error], next := .inr (.failed .computing error none) }

/-- Take the outcome of a stage's call, when it is not tried again. -/
def Stage.settle (rules : Rules) (r : Request) : (stage : Stage) → (stage.call r).Reply → Move
  | .readBinding, .ok binding => { next := .inl (.readAllocation binding.active) }
  | .readBinding, .error error => .fail .describing error none
  | .readAllocation expected, .ok current => .plan rules r.container expected current
  | .readAllocation _, .error error => .fail .describing error none
  | .confirmBinding expected candidate, .ok binding =>
    if binding.active = expected then { next := .inl (.register expected candidate) }
    else
      { entered := [.idle]
        next := .inr (.superseded
          ("binding moved from " ++ expected.text ++ " to " ++ binding.active.text ++
            " before registration") none) }
  | .confirmBinding _ _, .error error => .fail .registering error none
  | .register expected candidate, .ok new =>
    { entered := [.rebinding], next := .inl (.rebind expected new candidate.memory) }
  | .register _ _, .error error => .fail .registering error none
  | .rebind expected new memory, .ok () => .bound rules expected new memory
  | .rebind expected new memory, .error (.conflict detail) =>
    { next := .inl (.inspectBinding expected new memory detail) }
  | .rebind _ new _, .error error => .fail .rebinding error (some new)
  | .inspectBinding expected new memory detail, .ok binding =>
    if binding.active = new then .bound rules expected new memory
    else
      { entered := [.idle]
        next := .inr (.superseded
          ("binding moved from " ++ expected.text ++ " to " ++ binding.active.text ++
            " during rebind: " ++ detail) (some new)) }
  | .inspectBinding _ new _ _, .error error => .fail .rebinding error (some new)
  | .adjustAlarm expected new memory threshold, .ok () =>
    { entered := [.idle], next := .inr (.scaled expected new memory (.patched r.alarm threshold)) }
  | .adjustAlarm expected new memory threshold, .error error =>
    { entered := [.error]
      told := [.alarmLeftBehind]
      next := .inr (.scaled expected new memory (.stale r.alarm threshold error)) }

/-- A cycle between two calls. -/
structure Course where
  request : Request
  stage : Stage
  /-- The number of the attempt that is due, from one. -/
  attempt : Nat := 1
  /-- The states entered so far. -/
  path : List State
  deriving DecidableEq, Repr

/-- The events of entering states one after the other. -/
def transitions (family : String) (current : State) : List State → List Event
  | [] => []
  | next :: rest => .transition family current next :: transitions family next rest

namespace Course

/-- The state that the cycle is in. -/
def current (c : Course) : State := c.path.getLast?.getD .idle

/-- A cycle about to make its first call. -/
def start (request : Request) : Course :=
  { request, stage := .readBinding, path := [.idle, .describing] }

/-- The events of starting. -/
def startEvents (request : Request) : List Event :=
  transitions request.family .idle [.describing]

/-- The call that is due. -/
@[reducible] def call (c : Course) : Call := c.stage.call c.request

/-- What a cycle does after a reply. -/
inductive Next where
  /-- Make the same call again after a pause. -/
  | again (pause : Nat) (course : Course)
  /-- Make the next call. -/
  | proceed (course : Course)
  | finish (report : Report)
  deriving DecidableEq, Repr

/-- What a reply leads to, with the events on the way. -/
structure Turn where
  events : List Event
  next : Next
  deriving DecidableEq, Repr

/-- Carry out a move. -/
def move (c : Course) (m : Move) : Turn :=
  let path := c.path ++ m.entered
  { events := m.told ++ transitions c.request.family c.current m.entered
    next :=
      match m.next with
      | .inl stage => .proceed { c with stage, attempt := 1, path }
      | .inr outcome => .finish { outcome, path } }

/-- Whether a reply is followed by another attempt at the same call. -/
def triesAgain {α : Type} (rules : Rules) (c : Course) : Except Error α → Bool
  | .error error => rules.retry.triesAgain c.attempt error
  | .ok _ => false

/-- Take the reply to the call that is due. -/
def answer (rules : Rules) (c : Course) (reply : c.call.Reply) : Turn :=
  if c.triesAgain rules reply then
    { events := [.retried c.call.operation]
      next := .again (rules.retry.backoff c.attempt) { c with attempt := c.attempt + 1 } }
  else c.move (c.stage.settle rules c.request reply)

/-- A bound on the calls still to come. -/
def remaining (rules : Rules) (c : Course) : Nat :=
  c.stage.rank * rules.retry.attempts + (rules.retry.attempts - c.attempt)

end Course
end Headroom.Cycle
