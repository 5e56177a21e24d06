import Headroom.Decimal.Shortest
import Headroom.Error
import Headroom.Json.Members

/-!
The rules by which an allocation grows.
-/
namespace Headroom.Sizing

/-- How far memory grows at once. -/
inductive Step where
  /-- By a number of MiB. -/
  | plus (memory : UInt32)
  /-- By a factor, rounded up to a whole MiB. -/
  | times (factor : Float)
  deriving DecidableEq, Repr

/-- Where the service runs, as far as task sizes go. -/
inductive Platform where
  /-- Any size is offered. -/
  | unconstrained
  /-- Only the sizes of `Sizing.offered`. -/
  | fargate
  deriving DecidableEq, Repr, Inhabited

structure Policy where
  step : Step := .plus 256
  /-- The ceiling in MiB. -/
  maxMemory : UInt32 := 4096
  /-- Whether cpu keeps its ratio to memory where any size is offered. -/
  cpuFollowsMemory : Bool := false
  platform : Platform := .unconstrained
  deriving DecidableEq, Repr

def Policy.validate (p : Policy) : Except Error Unit :=
  let ceiling : Except Error Unit :=
    if p.maxMemory = 0 then .error (.validation "memory ceiling must be positive") else .ok ()
  match p.step with
  | .plus memory =>
    if memory = 0 then .error (.validation "fixed memory step must be positive") else ceiling
  | .times factor =>
    if factor.isFinite ∧ factor > 1 then ceiling
    else .error (.validation
      ("memory factor must be greater than 1, got " ++ Decimal.plain factor))

def Step.toJson : Step → Json
  | .plus memory => .object [("kind", .string "fixed"), ("memory_units", .count memory.toNat)]
  | .times factor => .object [("kind", .string "factor"), ("factor", .float factor)]

/-- The step of a kind, from its other members. -/
def Step.readKind (kind : String) (rest : Json.Raw) : Option Step :=
  match kind with
  | "fixed" => do
    let m ← Json.Members.of? ["memory_units"] rest
    return .plus (← m.required "memory_units" .uint32)
  | "factor" => do
    let m ← Json.Members.of? ["factor"] rest
    return .times (← m.required "factor" .float)
  | _ => none

/-- How deeply the members of a step may nest: it stands two levels deep. -/
def Step.depthLimit : Nat := Json.depthLimit - 2

/-- An object with a member `kind`, or an array that begins with the kind. The
other members are kept until the kind is known, so they must be free-form values
even where they are not used. -/
def Step.read : Json.Reader Step
  | .object members => do
    let kinds := members.filter (·.1 == some "kind")
    let rest := members.filter (·.1 != some "kind")
    let _ ← Json.membersWithin? Step.depthLimit rest
    match kinds with
    | [(_, .string (some kind))] => Step.readKind kind (.object rest)
    | _ => none
  | .array (.string (some kind) :: rest) => do
    let _ ← Json.itemsWithin? Step.depthLimit rest
    Step.readKind kind (.array rest)
  | _ => none

def Platform.name : Platform → String
  | .unconstrained => "unconstrained"
  | .fargate => "fargate"

def Platform.read : Json.Reader Platform :=
  .choice [("unconstrained", .unconstrained), ("fargate", .fargate)]

def Policy.toJson (p : Policy) : Json :=
  .object
    [("step", p.step.toJson), ("max_memory_units", .count p.maxMemory.toNat),
      ("cpu_follows_memory", .bool p.cpuFollowsMemory), ("platform", .string p.platform.name)]

def Policy.read : Json.Reader Policy := fun tree => do
  let usual : Policy := {}
  let m ← Json.Members.of? ["step", "max_memory_units", "cpu_follows_memory", "platform"] tree
  let step ← m.defaulted "step" usual.step Step.read
  let maxMemory ← m.defaulted "max_memory_units" usual.maxMemory .uint32
  let cpuFollowsMemory ← m.defaulted "cpu_follows_memory" usual.cpuFollowsMemory .bool
  let platform ← m.defaulted "platform" usual.platform Platform.read
  return { step, maxMemory, cpuFollowsMemory, platform }

end Headroom.Sizing
