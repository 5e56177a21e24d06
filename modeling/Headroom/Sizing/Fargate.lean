/-!
The task sizes that the serverless platform offers: for each number of cpu units
the memory sizes that go with it.
-/
namespace Headroom.Sizing

/-- One number of cpu units with its memory sizes in MiB, in rising order. -/
structure Tier where
  cpu : UInt32
  memory : List UInt32
  deriving DecidableEq, Repr

/-- `count` sizes from `first` on, `step` apart. -/
def sizes (first step : UInt32) (count : Nat) : List UInt32 :=
  (List.range count).map fun i => first + step * i.toUInt32

def tiers : List Tier :=
  [⟨256, [512, 1024, 2048]⟩,
    ⟨512, sizes 1024 1024 4⟩,
    ⟨1024, sizes 2048 1024 7⟩,
    ⟨2048, sizes 4096 1024 13⟩,
    ⟨4096, sizes 8192 1024 23⟩,
    ⟨8192, sizes 16384 4096 12⟩,
    ⟨16384, sizes 32768 8192 12⟩]

/-- Every offered pair of cpu units and memory. -/
def offered : List (UInt32 × UInt32) :=
  tiers.flatMap fun tier => tier.memory.map fun memory => (tier.cpu, memory)

def isOffered (cpu memory : UInt32) : Bool := (cpu, memory) ∈ offered

/-- Less memory comes first, and of equal memory less cpu. -/
def smaller (a b : UInt32 × UInt32) : Bool :=
  a.2 < b.2 || (a.2 == b.2 && a.1 < b.1)

/-- The first of the smallest pairs of a list. -/
def smallest? : List (UInt32 × UInt32) → Option (UInt32 × UInt32)
  | [] => none
  | pair :: rest =>
    match smallest? rest with
    | some best => some (if smaller best pair then best else pair)
    | none => some pair

/-- The smallest offered pair with at least the given cpu and memory, and with no
more memory than the ceiling. -/
def fit? (leastCpu leastMemory ceiling : UInt32) : Option (UInt32 × UInt32) :=
  smallest? <| offered.filter fun (cpu, memory) =>
    leastCpu ≤ cpu && leastMemory ≤ memory && memory ≤ ceiling

end Headroom.Sizing
