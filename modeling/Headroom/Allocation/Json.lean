import Headroom.Allocation.Basic
import Headroom.Json.Members

/-!
The JSON forms of allocations and bindings. Names are in camel case but for the
reference inside a binding; an optional setting of a container that is absent is
left out.
-/
namespace Headroom

def Revision.toJson (r : Revision) : Json :=
  .object [("family", .string r.family), ("revision", .count r.number.toNat)]

def Revision.read : Json.Reader Revision := fun tree => do
  let m ← Json.Members.of? ["family", "revision"] tree
  let family ← m.required "family" .string
  let number ← m.required "revision" .uint32
  return { family, number }

/-- A member that is left out when it is absent. -/
def optionalMember {α : Type} (key : String) (form : α → Json) : Option α → List (String × Json)
  | some value => [(key, form value)]
  | none => []

def Container.toJson (c : Container) : Json :=
  let size (n : UInt32) : Json := .count n.toNat
  .object <|
    [("name", .string c.name)] ++ optionalMember "image" .string c.image ++
      optionalMember "cpu" size c.cpu ++ optionalMember "memory" size c.memory ++
      optionalMember "memoryReservation" size c.memoryReservation

def Container.read : Json.Reader Container := fun tree => do
  let m ← Json.Members.of? ["name", "image", "cpu", "memory", "memoryReservation"] tree
  let name ← m.required "name" .string
  let image ← m.defaulted "image" none (.optional .string)
  let cpu ← m.defaulted "cpu" none (.optional .uint32)
  let memory ← m.defaulted "memory" none (.optional .uint32)
  let memoryReservation ← m.defaulted "memoryReservation" none (.optional .uint32)
  return { name, image, cpu, memory, memoryReservation }

def Allocation.toJson (a : Allocation) : Json :=
  .object
    [("family", .string a.family), ("revision", .count a.number.toNat),
      ("cpuUnits", .count a.cpu.toNat), ("memoryUnits", .count a.memory.toNat),
      ("containerDefinitions", .array (a.containers.map Container.toJson))]

def Allocation.read : Json.Reader Allocation := fun tree => do
  let m ← Json.Members.of?
    ["family", "revision", "cpuUnits", "memoryUnits", "containerDefinitions"] tree
  let family ← m.required "family" .string
  let number ← m.required "revision" .uint32
  let cpu ← m.required "cpuUnits" .uint32
  let memory ← m.required "memoryUnits" .uint32
  let containers ← m.defaulted "containerDefinitions" [] (.list Container.read)
  return { family, number, cpu, memory, containers }

def Binding.toJson (b : Binding) : Json :=
  .object
    [("clusterName", .string b.cluster), ("serviceName", .string b.service),
      ("containerName", .string b.container), ("activeAllocationRef", b.active.toJson)]

def Binding.read : Json.Reader Binding := fun tree => do
  let m ← Json.Members.of?
    ["clusterName", "serviceName", "containerName", "activeAllocationRef"] tree
  let cluster ← m.required "clusterName" .string
  let service ← m.required "serviceName" .string
  let container ← m.required "containerName" .string
  let active ← m.required "activeAllocationRef" Revision.read
  return { cluster, service, container, active }

end Headroom
