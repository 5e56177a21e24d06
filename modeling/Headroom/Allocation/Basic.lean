/-!
What a service is allotted. An allocation is one revision of a family of task
definitions; a binding says which revision a service runs.
-/
namespace Headroom

/-- The name of one registered allocation. -/
structure Revision where
  family : String
  number : UInt32
  deriving DecidableEq, Repr, Inhabited

/-- A revision as text: family, colon, number. -/
def Revision.text (r : Revision) : String := r.family ++ ":" ++ toString r.number

/-- The settings of one container; sizes in MiB and cpu units. -/
structure Container where
  name : String
  image : Option String := none
  cpu : Option UInt32 := none
  /-- The hard limit. -/
  memory : Option UInt32 := none
  /-- The soft limit. -/
  memoryReservation : Option UInt32 := none
  deriving DecidableEq, Repr, Inhabited

/-- A task definition. The revision number of one that is only proposed means
nothing: it is given out on registration. -/
structure Allocation where
  family : String
  number : UInt32
  cpu : UInt32
  memory : UInt32
  containers : List Container := []
  deriving DecidableEq, Repr, Inhabited

def Allocation.revision (a : Allocation) : Revision := ⟨a.family, a.number⟩

/-- Which revision a service runs. -/
structure Binding where
  cluster : String
  service : String
  container : String
  active : Revision
  deriving DecidableEq, Repr, Inhabited

end Headroom
