import Headroom.Allocation.Basic
import Headroom.Sizing.Fargate
import Headroom.Sizing.Policy

/-!
The next allocation after the current one. Memory grows by one step, up to the
ceiling; the pair of cpu and memory is then fitted to what the platform offers,
and the hard limit of the watched container grows with the task.
-/
namespace Headroom.Sizing

/-- What a plan comes to. -/
inductive Decision where
  /-- This allocation should be registered. -/
  | scaleTo (candidate : Allocation)
  /-- The current memory is at the ceiling or above it. -/
  | saturated (memory ceiling : UInt32)
  deriving DecidableEq, Repr

/-- The memory after one step, before the ceiling is applied. A product beyond the
range of 64 bits counts as its largest value. -/
def Step.apply (memory : UInt32) : Step → Nat
  | .plus more => memory.toNat + more.toNat
  | .times factor => Decimal.ceiling (memory.toFloat * factor)

/-- The memory to aim at. -/
def Policy.target (p : Policy) (memory : UInt32) : UInt32 :=
  (min (p.step.apply memory) p.maxMemory.toNat).toUInt32

/-- The least cpu that keeps its ratio to memory, and never less than before. A
result beyond 32 bits keeps its low 32 bits. -/
def followingCpu (cpu memory target : UInt32) : UInt32 :=
  let divisor := max memory.toNat 1
  let scaled := (cpu.toNat * target.toNat + (divisor - 1)) / divisor
  (max scaled cpu.toNat).toUInt32

/-- The container's settings when its task grows to `memory` by `more`. -/
def Container.grow (more memory : UInt32) (c : Container) : Container :=
  { c with memory := c.memory.map fun limit =>
      (min (min (limit.toNat + more.toNat) (UInt32.size - 1)) memory.toNat).toUInt32 }

/-- The allocation with new sizes. The hard limit of every container of the given
name grows by as much as the task does, but not beyond the task's memory. -/
def resize (current : Allocation) (container : String) (cpu memory : UInt32) : Allocation :=
  let more := (memory.toNat - current.memory.toNat).toUInt32
  { current with
    cpu
    memory
    containers := current.containers.map fun c =>
      if c.name = container then Container.grow more memory c else c }

/-- The sizes for a target above the current memory. -/
def Policy.sizes (p : Policy) (current : Allocation) (target : UInt32) :
    Except Error (UInt32 × UInt32) :=
  match p.platform with
  | .fargate =>
    match fit? current.cpu target p.maxMemory with
    | some pair => .ok pair
    | none => .error (.validation
        ("no compatible (cpu, memory) pair with cpu >= " ++ toString current.cpu ++ " and " ++
          toString target ++ " <= memory <= " ++ toString p.maxMemory))
  | .unconstrained =>
    .ok (if p.cpuFollowsMemory then followingCpu current.cpu current.memory target
      else current.cpu, target)

/-- Plan the allocation that follows the current one. -/
def Policy.plan (p : Policy) (current : Allocation) (container : String) :
    Except Error Decision := do
  p.validate
  let target := p.target current.memory
  if target ≤ current.memory then return .saturated current.memory p.maxMemory
  else
    let (cpu, memory) ← p.sizes current target
    return .scaleTo (resize current container cpu memory)

end Headroom.Sizing
