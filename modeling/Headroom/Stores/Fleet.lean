import Headroom.Allocation.Basic
import Headroom.Error

/-!
The services that an orchestrator runs: which revision each is bound to, and the
revisions that services were rolled to, in order.
-/
namespace Headroom

structure Fleet where
  /-- The binding of a cluster's service. -/
  binding? : String → String → Option Binding := fun _ _ => none
  rollouts : List Revision := []

instance : Inhabited Fleet := ⟨{}⟩

namespace Fleet

/-- Put a binding in place, whatever was there. -/
def insert (f : Fleet) (b : Binding) : Fleet :=
  { f with binding? := fun cluster service =>
      if cluster = b.cluster ∧ service = b.service then some b else f.binding? cluster service }

def describe (f : Fleet) (cluster service : String) : Except Error Binding :=
  match f.binding? cluster service with
  | some b => .ok b
  | none => .error (.notFound ("service " ++ cluster ++ "/" ++ service))

/-- Bind a service to the desired revision, but only if it is still bound to the
expected one. -/
def rebind (f : Fleet) (cluster service : String) (expected desired : Revision) :
    Except Error Unit × Fleet :=
  match f.binding? cluster service with
  | none => (.error (.notFound ("service " ++ cluster ++ "/" ++ service)), f)
  | some b =>
    if b.active = expected then
      (.ok (),
        { binding? := fun c s =>
            if c = cluster ∧ s = service then some { b with active := desired }
            else f.binding? c s
          rollouts := f.rollouts ++ [desired] })
    else
      (.error (.conflict
        ("service " ++ cluster ++ "/" ++ service ++ " is bound to " ++ b.active.text ++
          ", expected " ++ expected.text)), f)

end Fleet
end Headroom
