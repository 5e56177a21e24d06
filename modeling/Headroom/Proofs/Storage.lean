import Headroom.Gateway.Client
import Headroom.Proofs.Envelopes
import Headroom.Proofs.Extensions
import Mathlib.Logic.Relation

/-!
Allocations, bindings and revisions as JSON. What is written of one is read as it was, whatever
names and numbers it holds (`Stored.written`), and members of no account do not change what is
read of any text, whether it is read or refused (`Stored.extended`). So a gateway that reads and
writes them in this form keeps what is posted to it, and what it answers with is read as what it
keeps (`stored_as_posted`).
-/
namespace Headroom

open Relation (ReflTransGen)

namespace Json

/-- A text is read as a value. -/
def Reader.ofText? {α : Type} (read : Reader α) (text : String) : Option α :=
  (Raw.ofString? text).bind read

/-- A text tells a value: it is what is written of it, but for the layout and for members of no
account. -/
def Tells {α : Type} (write : α → Json) (more : Raw → Raw → Prop) (text : String) (x : α) :
    Prop :=
  ∃ tree, Raw.ofString? text = some tree ∧ ReflTransGen more (write x).raw tree

/-- Values are kept by being written and read again. -/
structure Stored {α : Type} (write : α → Json) (read : Reader α) (more : Raw → Raw → Prop) :
    Prop where
  /-- What is written of a value, on one line or over several, is read as the value. -/
  written : ∀ x, ∀ text ∈ [(write x).render, (write x).pretty], read.ofText? text = some x
  /-- Members of no account do not change what is read of a text, nor whether it is refused. -/
  extended : ∀ text text' tree tree', Raw.ofString? text = some tree →
    Raw.ofString? text' = some tree' → ReflTransGen more tree tree' →
    read.ofText? text' = read.ofText? text

section

variable {α : Type} {write : α → Json} {read : Reader α} {more : Raw → Raw → Prop}

theorem Reader.Ignores.many (ignores : read.Ignores more) {tree tree' : Raw}
    (extended : ReflTransGen more tree tree') : read tree' = read tree := by
  induction extended with
  | refl => rfl
  | tail _ last ih => rw [ignores _ _ last, ih]

theorem Stored.of_raw (back : ∀ x, read (write x).raw = some x) (ignores : read.Ignores more) :
    Stored write read more where
  written x text form := by
    simp only [List.mem_cons, List.not_mem_nil, or_false] at form
    obtain rfl | rfl := form
    · rw [Reader.ofText?, Raw.ofString?_render, Option.bind_some, back]
    · rw [Reader.ofText?, Raw.ofString?, ofBytes?_of_tokens (tokens_pretty _), Option.bind_some,
        back]
  extended text text' tree tree' given given' extended := by
    rw [Reader.ofText?, Reader.ofText?, given, given']
    exact ignores.many extended

theorem Stored.read_of_tells (stored : Stored write read more) {text : String} {x : α}
    (tells : Tells write more text x) : read.ofText? text = some x := by
  obtain ⟨tree, given, extended⟩ := tells
  rw [stored.extended _ _ _ _ (Raw.ofString?_render _) given extended]
  exact stored.written x _ (List.mem_cons_self)

theorem rawItems_eq_map (items : List Json) : rawItems items = items.map raw := by
  induction items with
  | nil => rfl
  | cons item rest ih => rw [rawItems, ih, List.map_cons]

theorem Reader.list_raw (back : ∀ x, read (write x).raw = some x) (xs : List α) :
    Reader.list read (Json.array (xs.map write)).raw = some xs := by
  rw [raw, rawItems_eq_map, List.map_map, Reader.list, List.mapM_map]
  induction xs with
  | nil => rfl
  | cons x rest ih => simp [List.mapM_cons, back, ih]

/-- What is built of the members of a structure, from an object in which each comes at most
once. -/
theorem bind_of?_raw {keys : List String} {members : List (String × Json)}
    {build : Members → Option α} {x : α}
    (once : ∀ key ∈ keys, (valuesOf key members).length ≤ 1)
    (built : ∀ m : Members, (∀ key ∈ keys, m.find? key = (valuesOf key members).head?.map raw) →
      build m = some x) :
    (Members.of? keys (Json.object members).raw).bind build = some x := by
  obtain ⟨m, known, -, found⟩ := members_of?_raw once
  rw [known, Option.bind_some, built m found]

theorem required_raw {key : String} {members : List (String × Json)} {m : Members}
    (found : m.find? key = (valuesOf key members).head?.map raw) {value : Json} {x : α}
    (here : valuesOf key members = [value]) (back : read value.raw = some x) :
    m.required key read = some x := by
  rw [Members.required, found, here]
  exact back

theorem defaulted_raw {key : String} {members : List (String × Json)} {m : Members}
    (found : m.find? key = (valuesOf key members).head?.map raw) {value : Json} {x default : α}
    (here : valuesOf key members = [value]) (back : read value.raw = some x) :
    m.defaulted key default read = some x := by
  rw [Members.defaulted, found, here]
  exact back

theorem valuesOf_append (key : String) (members others : List (String × Json)) :
    valuesOf key (members ++ others) = valuesOf key members ++ valuesOf key others := by
  simp [valuesOf]

theorem valuesOf_optionalMember (key name : String) (form : α → Json) (value : Option α) :
    valuesOf key (optionalMember name form value) =
      if name = key then (value.map form).toList else [] := by
  cases value with
  | none => simp [optionalMember, valuesOf]
  | some x =>
    by_cases same : name = key
    · simp [optionalMember, valuesOf, same]
    · simp [optionalMember, valuesOf, same]

theorem HoldsOptional.of_toList {key : String} {members : List (String × Json)}
    {value : Option Json} (here : valuesOf key members = value.toList) :
    HoldsOptional key members value := by
  cases value with
  | none => exact .inl here
  | some value => exact here

end

theorem HoldsOptional.uint32 {key : String} {members : List (String × Json)}
    {size : Option UInt32} (holds : HoldsOptional key members (size.map fun n => .count n.toNat))
    {m : Members} (found : m.find? key = (valuesOf key members).head?.map raw) :
    m.defaulted key none (.optional .uint32) = some size := by
  exact holds.read found uint32_raw fun _ => integer_raw_ne_null _

end Json

open Json

/-- A revision's object has one more member of no account. -/
def Revision.Extends : Raw → Raw → Prop :=
  Raw.Extends ["family", "revision"] [] fun _ _ _ => False

theorem Revision.read_raw (r : Revision) : Revision.read r.toJson.raw = some r := by
  rw [Revision.read, Revision.toJson]
  refine bind_of?_raw (by simp [valuesOf]) fun m found => ?_
  have family : m.required "family" .string = some r.family :=
    required_raw (found _ (by simp)) rfl rfl
  have number : m.required "revision" .uint32 = some r.number :=
    required_raw (found _ (by simp)) rfl (uint32_raw r.number)
  simp [family, number]

theorem Revision.read_ignores : Revision.read.Ignores Revision.Extends :=
  fun _ _ more => more.bind_of? fun m m' slots => by
    have family := (slots "family").required (by simp) Reader.string.ignores_nothing
    have number := (slots "revision").required (by simp) Reader.uint32.ignores_nothing
    simp [family, number]

/-- A container's object has one more member of no account: one that is not its own, or a setting
that is absent, as null. -/
def Container.Extends : Raw → Raw → Prop :=
  Raw.Extends ["name", "image", "cpu", "memory", "memoryReservation"]
    ["image", "cpu", "memory", "memoryReservation"] fun _ _ _ => False

/-- An object holds a container: its name, and those settings that it has. -/
structure ContainerMembers (c : Container) (members : List (String × Json)) : Prop where
  name : valuesOf "name" members = [.string c.name]
  image : HoldsOptional "image" members (c.image.map .string)
  cpu : HoldsOptional "cpu" members (c.cpu.map fun n => .count n.toNat)
  memory : HoldsOptional "memory" members (c.memory.map fun n => .count n.toNat)
  memoryReservation :
    HoldsOptional "memoryReservation" members (c.memoryReservation.map fun n => .count n.toNat)

theorem Container.members_toJson (c : Container) :
    ∃ members, c.toJson = .object members ∧ ContainerMembers c members := by
  refine ⟨_, rfl, ?_, .of_toList ?_, .of_toList ?_, .of_toList ?_, .of_toList ?_⟩
  · simp [valuesOf_append, valuesOf_optionalMember, valuesOf_cons_self]
  all_goals simp [valuesOf_append, valuesOf_optionalMember, valuesOf_cons_other]

theorem Container.read_raw (c : Container) : Container.read c.toJson.raw = some c := by
  obtain ⟨members, written, holds⟩ := c.members_toJson
  rw [Container.read, written]
  refine bind_of?_raw ?_ fun m found => ?_
  · simp [holds.name, holds.image.once, holds.cpu.once, holds.memory.once,
      holds.memoryReservation.once]
  · have name : m.required "name" .string = some c.name :=
      required_raw (found _ (by simp)) holds.name rfl
    have image : m.defaulted "image" none (.optional .string) = some c.image :=
      holds.image.read (found _ (by simp)) (fun _ => rfl) fun _ => by rintro ⟨⟩
    have cpu := holds.cpu.uint32 (found _ (by simp))
    have memory := holds.memory.uint32 (found _ (by simp))
    have memoryReservation := holds.memoryReservation.uint32 (found _ (by simp))
    simp [name, image, cpu, memory, memoryReservation]

theorem Container.read_ignores : Container.read.Ignores Container.Extends :=
  fun _ _ more => more.bind_of? fun m m' slots => by
    have name := (slots "name").required (by simp) Reader.string.ignores_nothing
    have image := (slots "image").optional (Reader.optional .string).ignores_nothing
    have size (key : String) := (slots key).optional (Reader.optional .uint32).ignores_nothing
    simp [name, image, size]

/-- An allocation's object has one more member of no account, or one of its containers has. -/
def Allocation.Extends : Raw → Raw → Prop :=
  Raw.Extends ["family", "revision", "cpuUnits", "memoryUnits", "containerDefinitions"] []
    fun key tree tree' =>
      key = "containerDefinitions" ∧ Raw.ExtendsItem Container.Extends tree tree'

theorem Allocation.read_raw (a : Allocation) : Allocation.read a.toJson.raw = some a := by
  rw [Allocation.read, Allocation.toJson]
  refine bind_of?_raw (by simp [valuesOf]) fun m found => ?_
  have family : m.required "family" .string = some a.family :=
    required_raw (found _ (by simp)) rfl rfl
  have number : m.required "revision" .uint32 = some a.number :=
    required_raw (found _ (by simp)) rfl (uint32_raw a.number)
  have cpu : m.required "cpuUnits" .uint32 = some a.cpu :=
    required_raw (found _ (by simp)) rfl (uint32_raw a.cpu)
  have memory : m.required "memoryUnits" .uint32 = some a.memory :=
    required_raw (found _ (by simp)) rfl (uint32_raw a.memory)
  have containers :
      m.defaulted "containerDefinitions" [] (.list Container.read) = some a.containers :=
    defaulted_raw (found _ (by simp)) rfl (Reader.list_raw Container.read_raw a.containers)
  simp [family, number, cpu, memory, containers]

theorem Allocation.read_ignores : Allocation.read.Ignores Allocation.Extends :=
  fun _ _ more => more.bind_of? fun m m' slots => by
    have family := (slots "family").required (by simp) (Reader.string.ignores_elsewhere (by decide))
    have number := (slots "revision").required (by simp)
      (Reader.uint32.ignores_elsewhere (by decide))
    have cpu := (slots "cpuUnits").required (by simp) (Reader.uint32.ignores_elsewhere (by decide))
    have memory := (slots "memoryUnits").required (by simp)
      (Reader.uint32.ignores_elsewhere (by decide))
    have containers : m'.defaulted "containerDefinitions" [] (.list Container.read) =
        m.defaulted "containerDefinitions" [] (.list Container.read) :=
      (slots "containerDefinitions").defaulted (by simp) fun tree tree' inner =>
        Container.read_ignores.list tree tree' inner.2
    simp [family, number, cpu, memory, containers]

/-- A binding's object has one more member of no account, or its reference has. -/
def Binding.Extends : Raw → Raw → Prop :=
  Raw.Extends ["clusterName", "serviceName", "containerName", "activeAllocationRef"] []
    fun key tree tree' => key = "activeAllocationRef" ∧ Revision.Extends tree tree'

theorem Binding.read_raw (b : Binding) : Binding.read b.toJson.raw = some b := by
  rw [Binding.read, Binding.toJson]
  refine bind_of?_raw (by simp [valuesOf]) fun m found => ?_
  have cluster : m.required "clusterName" .string = some b.cluster :=
    required_raw (found _ (by simp)) rfl rfl
  have service : m.required "serviceName" .string = some b.service :=
    required_raw (found _ (by simp)) rfl rfl
  have container : m.required "containerName" .string = some b.container :=
    required_raw (found _ (by simp)) rfl rfl
  have active : m.required "activeAllocationRef" Revision.read = some b.active :=
    required_raw (found _ (by simp)) rfl b.active.read_raw
  simp [cluster, service, container, active]

theorem Binding.read_ignores : Binding.read.Ignores Binding.Extends :=
  fun _ _ more => more.bind_of? fun m m' slots => by
    have name (key : String) (other : key ≠ "activeAllocationRef") :=
      (slots key).required (by simp) (Reader.string.ignores_elsewhere other)
    have active := (slots "activeAllocationRef").required (by simp) fun tree tree' inner =>
      Revision.read_ignores tree tree' inner.2
    simp [name, active]

theorem Revision.stored : Stored Revision.toJson Revision.read Revision.Extends :=
  .of_raw Revision.read_raw Revision.read_ignores

theorem Allocation.stored : Stored Allocation.toJson Allocation.read Allocation.Extends :=
  .of_raw Allocation.read_raw Allocation.read_ignores

theorem Binding.stored : Stored Binding.toJson Binding.read Binding.Extends :=
  .of_raw Binding.read_raw Binding.read_ignores

namespace Gateway

/-- The revisions that a service is to be moved from and to. -/
def readMove : Reader (Revision × Revision) := fun tree => do
  let m ← Members.of? ["expected", "desired"] tree
  let expected ← m.required "expected" Revision.read
  let desired ← m.required "desired" Revision.read
  return (expected, desired)

theorem readMove_raw (expected desired : Revision) :
    readMove (Json.object [("expected", expected.toJson), ("desired", desired.toJson)]).raw =
      some (expected, desired) := by
  rw [readMove]
  refine bind_of?_raw (by simp [valuesOf]) fun m found => ?_
  have first : m.required "expected" Revision.read = some expected :=
    required_raw (found _ (by simp)) rfl expected.read_raw
  have second : m.required "desired" Revision.read = some desired :=
    required_raw (found _ (by simp)) rfl desired.read_raw
  simp [first, second]

/-- A gateway that reads and writes allocations, bindings and revisions as its client does
takes over what the client posts, and the client takes over what it answers. -/
structure Client.Agrees (c : Client) : Prop where
  registered : ∀ candidate, ∃ body, (c.request (.register candidate)).body = some body ∧
    Allocation.read.ofText? body.render = some candidate
  rebound : ∀ cluster service expected desired, ∃ body,
    (c.request (.rebind cluster service expected desired)).body = some body ∧
      readMove.ofText? body.render = some (expected, desired)
  described : ∀ family allocation status text, isSuccessStatus status →
    Tells Allocation.toJson Allocation.Extends text allocation →
    answer (.received status text) (.describe family) = .ok allocation
  numbered : ∀ candidate revision status text, isSuccessStatus status →
    Tells Revision.toJson Revision.Extends text revision →
    answer (.received status text) (.register candidate) = .ok revision
  inspected : ∀ cluster service binding status text, isSuccessStatus status →
    Tells Binding.toJson Binding.Extends text binding →
    answer (.received status text) (.describeBinding cluster service) = .ok binding

/-- A successful reply is read as the value that it tells. -/
theorem readAnswer_of_tells {α : Type} {write : α → Json} {read : Reader α}
    {more : Raw → Raw → Prop} (stored : Stored write read more) {status : Nat} {text : String}
    {x : α} (success : isSuccessStatus status) (tells : Tells write more text x) :
    readAnswer .orchestrator read (.received status text) = .ok x := by
  have body : accepted .orchestrator (.received status text) = .ok text := if_pos success
  have value : (Raw.ofString? text).bind read = some x := stored.read_of_tells tells
  rw [readAnswer, body]
  simp [bind, Except.bind, value]

theorem Client.agrees (c : Client) : c.Agrees where
  registered candidate := ⟨_, rfl, Allocation.stored.written candidate _ (by simp)⟩
  rebound cluster service expected desired := by
    refine ⟨_, rfl, ?_⟩
    rw [Reader.ofText?, Raw.ofString?_render]
    exact readMove_raw expected desired
  described family allocation status text success tells :=
    readAnswer_of_tells Allocation.stored success tells
  numbered candidate revision status text success tells :=
    readAnswer_of_tells Revision.stored success tells
  inspected cluster service binding status text success tells :=
    readAnswer_of_tells Binding.stored success tells

/-- Allocations, bindings and revisions are read as they were written, and a client and a
gateway that do so agree on them. -/
theorem stored_as_posted (c : Client) :
    Stored Revision.toJson Revision.read Revision.Extends ∧
      Stored Allocation.toJson Allocation.read Allocation.Extends ∧
      Stored Binding.toJson Binding.read Binding.Extends ∧ c.Agrees :=
  ⟨Revision.stored, Allocation.stored, Binding.stored, c.agrees⟩

/-- A task with one container that leaves its image and its sizes open. -/
def openTask : Allocation where
  family := "tâche \x22π\x22"
  number := 4294967295
  cpu := 256
  memory := 512
  containers := [{ name := "app\n\\", memory := some 512 }]

/-- What a gateway makes of it that notes the image as null and adds members of its own. -/
def openTaskNoted : Json :=
  .object
    [("family", .string "tâche \x22π\x22"), ("revision", .count 4294967295),
      ("cpuUnits", .count 256), ("arn", .array [.object [("family", .null)]]),
      ("memoryUnits", .count 512),
      ("containerDefinitions", .array
        [.object [("name", .string "app\n\\"), ("image", .null), ("memory", .count 512),
          ("essential", .bool true)]])]

def localClient : Client where
  orchestrator := ⟨"http", some "localhost:8080", .segments [""], none⟩
  metrics := ⟨"http", some "localhost:8081", .segments [""], none⟩

theorem openTask_returned :
    (∃ body, (localClient.request (.register openTask)).body = some body ∧
      Allocation.read.ofText? body.render = some openTask) ∧
    Client.answer (.received 200 openTaskNoted.pretty) (.describe "task") = .ok openTask := by
  obtain ⟨-, -, -, agrees⟩ := stored_as_posted localClient
  have tells : Tells Allocation.toJson Allocation.Extends openTaskNoted.pretty openTask := by
    refine ⟨openTaskNoted.raw, ofBytes?_of_tokens (tokens_pretty _), ?_⟩
    have within {family number cpu memory item item' : Raw} (more : Container.Extends item item') :
        Allocation.Extends
          (.object [(some "family", family), (some "revision", number), (some "cpuUnits", cpu),
            (some "memoryUnits", memory), (some "containerDefinitions", .array [item])])
          (.object [(some "family", family), (some "revision", number), (some "cpuUnits", cpu),
            (some "memoryUnits", memory), (some "containerDefinitions", .array [item'])]) :=
      @Raw.Extends.within _ _ _ [_, _, _, _] [] _ _ _
        ⟨rfl, @Raw.ExtendsItem.within _ [] [] _ _ more⟩
    have image {name memory : Raw} : Container.Extends
        (.object [(some "name", name), (some "memory", memory)])
        (.object [(some "name", name), (some "image", .null), (some "memory", memory)]) :=
      @Raw.Extends.null _ _ _ [_] [_] _ (by simp) (by simp)
    have essential {name image memory : Raw} : Container.Extends
        (.object [(some "name", name), (some "image", image), (some "memory", memory)])
        (.object [(some "name", name), (some "image", image), (some "memory", memory),
          (some "essential", .bool true)]) :=
      @Raw.Extends.unknown _ _ _ [_, _, _] [] _ _ (by simp)
    exact .head (within image) (.head (within essential)
      (.single (@Raw.Extends.unknown _ _ _ [_, _, _] [_, _] _ _ (by simp))))
  exact ⟨agrees.registered openTask, agrees.described "task" openTask 200 _ rfl tells⟩

end Gateway
end Headroom
