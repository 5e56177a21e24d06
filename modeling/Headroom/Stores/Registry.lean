import Headroom.Allocation.Basic
import Headroom.Error

/-!
A registry of allocations that only grows: every family has the history of its
revisions, numbered from one in the order of registration.
-/
namespace Headroom

structure Registry where
  /-- The revisions of a family, oldest first. -/
  history : String → List Allocation := fun _ => []

instance : Inhabited Registry := ⟨{}⟩

namespace Registry

/-- The number that the next revision of a family gets. -/
def nextNumber (r : Registry) (family : String) : UInt32 :=
  (r.history family).length.toUInt32 + 1

/-- Put an allocation at the end of its family's history, with the next number. -/
def append (r : Registry) (a : Allocation) : Registry :=
  let numbered := { a with number := r.nextNumber a.family }
  { history := fun family =>
      if family = a.family then r.history family ++ [numbered] else r.history family }

/-- Add an allocation without checking it. -/
def seed (r : Registry) (a : Allocation) : Revision × Registry :=
  (⟨a.family, r.nextNumber a.family⟩, r.append a)

/-- The latest revision of a family. -/
def describe (r : Registry) (family : String) : Except Error Allocation :=
  match (r.history family).getLast? with
  | some latest => .ok latest
  | none => .error (.notFound ("task definition family " ++ family))

/-- The revision of a family with a number. -/
def revision? (r : Registry) (family : String) (number : UInt32) : Option Allocation :=
  (r.history family).find? (·.number == number)

/-- Why a candidate is refused: no family, no cpu or memory, or a container that
may use more memory than its task has. -/
def refusal? (candidate : Allocation) : Option Error :=
  if candidate.family = "" then some (.validation "family must not be empty")
  else if candidate.cpu = 0 ∨ candidate.memory = 0 then
    some (.validation
      ("cpu (" ++ toString candidate.cpu ++ ") and memory (" ++ toString candidate.memory ++
        ") must be positive"))
  else
    candidate.containers.findSome? fun container =>
      match container.memory with
      | some limit =>
        if candidate.memory < limit then
          some (.validation
            ("container " ++ container.name ++ " memory " ++ toString limit ++
              " exceeds task memory " ++ toString candidate.memory))
        else none
      | none => none

/-- Register a candidate as the next revision of its family. -/
def register (r : Registry) (candidate : Allocation) : Except Error Revision × Registry :=
  match refusal? candidate with
  | some error => (.error error, r)
  | none => (.ok ⟨candidate.family, r.nextNumber candidate.family⟩, r.append candidate)

end Registry
end Headroom
