import Headroom.Controller
import Headroom.Stores.Basic

/-!
Stores in memory whose calls can be disturbed: made slow, made to fail before or
after their effect, and mixed with bindings that somebody else puts in place. Each
operation has a queue of disturbances, of which every call takes the next.
-/
namespace Headroom.Simulation

/-- What happens to one call. Times are in milliseconds. -/
structure Disturbance where
  /-- The time before the effect. -/
  delay : Nat := 0
  /-- A binding that somebody puts in place just before the effect. -/
  bindBefore : Option Binding := none
  error : Option Error := none
  /-- Whether the error takes the place of an answer that the store has given. -/
  afterEffect : Bool := false
  /-- A binding that somebody puts in place just after the effect. -/
  bindAfter : Option Binding := none
  /-- The time between the effect and the reply. -/
  delayAfter : Nat := 0
  deriving Repr, Inhabited

/-- A call that was made: a call of a cycle, or datapoints offered under a namespace. -/
inductive Made where
  | call (call : Call)
  | publish (metricNamespace : String) (count : Nat)
  deriving DecidableEq, Repr

structure World where
  stores : Stores := {}
  /-- What will happen to the next calls of an operation. -/
  pending : Operation → List Disturbance := fun _ => []
  /-- The requests that each controller is serving. -/
  inFlight : Nat → InFlight := fun _ => {}
  /-- The calls made so far with the time when each began, newest first. -/
  made : List (Nat × Made) := []
  /-- The events so far, newest first. -/
  told : List Event := []
  deriving Inhabited

namespace World

/-- Note an event. -/
def tell (w : World) (events : List Event) : World := { w with told := events.reverse ++ w.told }

/-- Append to the queue of an operation. -/
def disturb (w : World) (operation : Operation) (more : List Disturbance) : World :=
  { w with pending := fun other =>
      if other = operation then w.pending other ++ more else w.pending other }

/-- Take the next disturbance of an operation; a call that finds none is undisturbed. -/
def next (w : World) (operation : Operation) : Disturbance × World :=
  match w.pending operation with
  | [] => ({}, w)
  | first :: rest =>
    (first, { w with pending := fun other => if other = operation then rest else w.pending other })

@[simp] theorem next_stores (w : World) (operation : Operation) :
    (w.next operation).2.stores = w.stores := by
  unfold next
  split <;> rfl

/-- Note that a call begins. -/
def note (w : World) (now : Nat) (what : Made) : World := { w with made := (now, what) :: w.made }

/-- Set what a controller is serving. -/
def setInFlight (w : World) (controller : Nat) (f : InFlight) : World :=
  { w with inFlight := fun other => if other = controller then f else w.inFlight other }

end World

/-- Put a binding in place, if there is one. -/
def bindIfAny (binding : Option Binding) (s : Stores) : Stores :=
  match binding with
  | some b => { s with fleet := s.fleet.insert b }
  | none => s

/-- The reply to a disturbed call, and the stores after it. -/
def Disturbance.effect {α : Type} (d : Disturbance) (act : Stores → Except Error α × Stores)
    (s : Stores) : Except Error α × Stores :=
  let s := bindIfAny d.bindBefore s
  let (reply, s) :=
    match d.error with
    | none => act s
    | some error =>
      if d.afterEffect then
        match act s with
        | (.ok _, s) => (.error error, s)
        | refused => refused
      else (.error error, s)
  (reply, bindIfAny d.bindAfter s)

end Headroom.Simulation
