import Headroom.Cycle.Run

/-!
A controller turns notifications into scaling cycles. It holds the keys of the
requests that are being served, and serves one request of a key at a time.
-/
namespace Headroom

open Headroom.Cycle (Outcome Report Rules)

/-- The keys of the requests that a controller is serving. -/
structure InFlight where
  keys : List String := []
  deriving DecidableEq, Repr, Inhabited

namespace InFlight

/-- Take a key, unless it is held. -/
def take? (f : InFlight) (key : String) : Option InFlight :=
  if key ∈ f.keys then none else some ⟨key :: f.keys⟩

/-- Give a key back. -/
def release (f : InFlight) (key : String) : InFlight := ⟨f.keys.erase key⟩

end InFlight

namespace Controller

/-- The report of a request whose key is held by another cycle. -/
def busyReport (r : Request) : Report :=
  { outcome := .superseded ("a scaling cycle for " ++ r.key ++ " is already in flight") none
    path := [.idle] }

/-- The report of a notification that does not ask for more resources. -/
def ignoredReport (state : AlarmState) : Report := { outcome := .ignored state, path := [.idle] }

/-- The report of a notification that cannot be followed. -/
def refusedReport (error : Error) : Report :=
  { outcome := .failed .idle error none, path := [.idle, .error] }

/-- The events of a report that is given without a cycle. -/
def reportEvents (family : String) (report : Report) : List Event :=
  Cycle.transitions family .idle report.path.tail ++ [.cycleEnded family report.outcome]

/-- What to do about a notification: serve a request, or answer at once. -/
def intake (target : Target) (text : String) : Except Report Request :=
  match Notification.ofText text with
  | .error error => .error (refusedReport error)
  | .ok n =>
    if n.asksToScale then
      match n.request target text with
      | .ok request => .ok request
      | .error error => .error (refusedReport error)
    else .error (ignoredReport (n.state.getD .ok))

/-- Serve one request with nothing else going on. -/
def serve {σ : Type} (rules : Rules) (perform : σ → (call : Call) → call.Reply × σ) (world : σ)
    (r : Request) : Cycle.Course.Finished σ :=
  let finished := (Cycle.Course.start r).run rules perform world
  { finished with
    events := Cycle.Course.startEvents r ++ finished.events ++
      [.cycleEnded r.family finished.report.outcome] }

/-- Handle one notification with nothing else going on. -/
def handle {σ : Type} (rules : Rules) (perform : σ → (call : Call) → call.Reply × σ)
    (target : Target) (world : σ) (text : String) : Cycle.Course.Finished σ :=
  match intake target text with
  | .ok r => serve rules perform world r
  | .error report => ⟨report, reportEvents target.family report, world⟩

end Controller
end Headroom
