import Headroom.Sizing.Plan

/-!
What a planned allocation has in common with the one it follows, and that it has
more memory, whatever the step and the platform.
-/
namespace Headroom.Sizing

/-- A number up to one of 32 bits keeps its value when it is taken as one of 32 bits. -/
theorem toNat_toUInt32_of_le {n : Nat} {bound : UInt32} (within : n ≤ bound.toNat) :
    n.toUInt32.toNat = n := by
  have small := bound.toNat_lt
  rw [Nat.toUInt32_eq, UInt32.toNat_ofNat', Nat.mod_eq_of_lt (by omega)]

theorem smallest?_mem {pairs : List (UInt32 × UInt32)} {best : UInt32 × UInt32}
    (found : smallest? pairs = some best) : best ∈ pairs := by
  induction pairs generalizing best with
  | nil => cases found
  | cons pair rest ih =>
    unfold smallest? at found
    split at found
    · rename_i other smallest
      split at found
      · rw [← Option.some.inj found]
        exact List.mem_cons_of_mem _ (ih smallest)
      · rw [← Option.some.inj found]
        exact List.mem_cons_self
    · rw [← Option.some.inj found]
      exact List.mem_cons_self

/-- A fitting pair has at least the cpu and the memory asked for, within the ceiling. -/
theorem fit?_bounds {leastCpu leastMemory ceiling : UInt32} {pair : UInt32 × UInt32}
    (found : fit? leastCpu leastMemory ceiling = some pair) :
    leastCpu ≤ pair.1 ∧ leastMemory ≤ pair.2 ∧ pair.2 ≤ ceiling := by
  have member := smallest?_mem found
  simpa [and_assoc] using (List.mem_filter.mp member).2

/-- Sizes are the pair that fits where only some are offered, and the target where any is. -/
theorem Policy.sizes_cases {p : Policy} {current : Allocation} {target : UInt32}
    {sizes : UInt32 × UInt32} (sized : p.sizes current target = .ok sizes) :
    p.platform = .fargate ∧ fit? current.cpu target p.maxMemory = some sizes ∨
      p.platform = .unconstrained ∧
        sizes = (if p.cpuFollowsMemory then followingCpu current.cpu current.memory target
          else current.cpu, target) := by
  unfold Policy.sizes at sized
  split at sized
  · rename_i fargate
    split at sized
    · rename_i found
      rw [← Except.ok.inj sized]
      exact .inl ⟨fargate, found⟩
    · cases sized
  · rename_i free
    exact .inr ⟨free, (Except.ok.inj sized).symm⟩

/-- There are no sizes only where no offered pair fits. -/
theorem Policy.sizes_error {p : Policy} {current : Allocation} {target : UInt32} {error : Error}
    (unsized : p.sizes current target = .error error) :
    p.platform = .fargate ∧ fit? current.cpu target p.maxMemory = none ∧
      ∃ detail, error = .validation detail := by
  unfold Policy.sizes at unsized
  split at unsized
  · rename_i fargate
    split at unsized
    · cases unsized
    · rename_i none
      exact ⟨fargate, none, _, (Except.error.inj unsized).symm⟩
  · cases unsized

/-- The sizes for a target have at least its memory. -/
theorem Policy.sizes_memory {p : Policy} {current : Allocation} {target : UInt32}
    {sizes : UInt32 × UInt32} (sized : p.sizes current target = .ok sizes) : target ≤ sizes.2 := by
  rcases sizes_cases sized with ⟨-, found⟩ | ⟨-, rfl⟩
  · exact (fit?_bounds found).2.1
  · exact UInt32.le_refl target

theorem Policy.sizes_within {p : Policy} {current : Allocation} {target : UInt32}
    {sizes : UInt32 × UInt32} (within : target ≤ p.maxMemory)
    (sized : p.sizes current target = .ok sizes) : sizes.2 ≤ p.maxMemory := by
  rcases sizes_cases sized with ⟨-, found⟩ | ⟨-, rfl⟩
  · exact (fit?_bounds found).2.2
  · exact within

/-- Where cpu does not follow memory it never shrinks. -/
theorem Policy.sizes_cpu {p : Policy} (fixed : p.cpuFollowsMemory = false) {current : Allocation}
    {target : UInt32} {sizes : UInt32 × UInt32} (sized : p.sizes current target = .ok sizes) :
    current.cpu ≤ sizes.1 := by
  rcases sizes_cases sized with ⟨-, found⟩ | ⟨-, rfl⟩
  · exact (fit?_bounds found).1
  · simp [fixed]

theorem Policy.valid_of_plan {p : Policy} {current : Allocation} {container : String}
    {decision : Decision} (planned : p.plan current container = .ok decision) :
    p.validate = .ok () := by
  cases valid : p.validate with
  | ok _ => rfl
  | error error => simp [plan, valid, bind, Except.bind] at planned

/-- A plan of a valid policy: nothing to do at the target or above it, and otherwise the
sizes for the target. -/
theorem Policy.plan_eq {p : Policy} (valid : p.validate = .ok ()) (current : Allocation)
    (container : String) :
    p.plan current container =
      if p.target current.memory ≤ current.memory then .ok (.saturated current.memory p.maxMemory)
      else (p.sizes current (p.target current.memory)).map fun sizes =>
        .scaleTo (resize current container sizes.1 sizes.2) := by
  unfold Policy.plan
  simp only [valid, bind, Except.bind]
  split
  · rfl
  · cases p.sizes current (p.target current.memory) <;> rfl

/-- A plan to grow comes from sizes above the current memory. -/
theorem Policy.plan_scaleTo {p : Policy} {current candidate : Allocation} {container : String}
    (planned : p.plan current container = .ok (.scaleTo candidate)) :
    ∃ cpu memory, p.sizes current (p.target current.memory) = .ok (cpu, memory) ∧
      current.memory < memory ∧ candidate = resize current container cpu memory := by
  rw [plan_eq (valid_of_plan planned)] at planned
  split at planned
  · cases planned
  · rename_i above
    cases sized : p.sizes current (p.target current.memory) with
    | error error =>
      rw [sized] at planned
      cases planned
    | ok sizes =>
      rw [sized] at planned
      obtain rfl := Decision.scaleTo.inj (Except.ok.inj planned)
      have reached := sizes_memory sized
      exact ⟨sizes.1, sizes.2, rfl, UInt32.lt_of_lt_of_le (UInt32.not_le.mp above) reached, rfl⟩

theorem Policy.plan_memory {p : Policy} {current candidate : Allocation} {container : String}
    (planned : p.plan current container = .ok (.scaleTo candidate)) :
    current.memory < candidate.memory := by
  obtain ⟨cpu, memory, -, more, rfl⟩ := plan_scaleTo planned
  exact more

/-- A valid policy makes no plan only where the platform offers no size for it. -/
theorem Policy.plan_error {p : Policy} (valid : p.validate = .ok ()) {current : Allocation}
    {container : String} {error : Error} (unplanned : p.plan current container = .error error) :
    p.platform = .fargate ∧ ∃ detail, error = .validation detail := by
  rw [plan_eq valid] at unplanned
  split at unplanned
  · cases unplanned
  · cases sized : p.sizes current (p.target current.memory) with
    | ok sizes =>
      rw [sized] at unplanned
      cases unplanned
    | error cause =>
      rw [sized] at unplanned
      obtain rfl := Except.error.inj unplanned
      obtain ⟨fargate, -, told⟩ := sizes_error sized
      exact ⟨fargate, told⟩

/-- A policy that is not valid is refused as such. -/
theorem Policy.validate_error {p : Policy} {error : Error} (refused : p.validate = .error error) :
    ∃ detail, error = .validation detail := by
  have ceiling (bare : (if p.maxMemory = 0 then
      .error (.validation "memory ceiling must be positive") else .ok () : Except Error Unit) =
      .error error) : ∃ detail, error = .validation detail := by
    split at bare
    · exact ⟨_, (Except.error.inj bare).symm⟩
    · cases bare
  unfold validate at refused
  dsimp only at refused
  split at refused
  · split at refused
    · exact ⟨_, (Except.error.inj refused).symm⟩
    · exact ceiling refused
  · split at refused
    · exact ceiling refused
    · exact ⟨_, (Except.error.inj refused).symm⟩

/-- No plan fails for another cause, be the policy valid or not. -/
theorem Policy.plan_refused {p : Policy} {current : Allocation} {container : String}
    {error : Error} (unplanned : p.plan current container = .error error) :
    ∃ detail, error = .validation detail := by
  cases checked : p.validate with
  | ok _ => exact (plan_error checked unplanned).2
  | error cause =>
    have refused : p.plan current container = .error cause := by
      simp [plan, checked, bind, Except.bind]
    obtain rfl := Except.error.inj (refused.symm.trans unplanned)
    exact validate_error checked

theorem Policy.plan_family {p : Policy} {current candidate : Allocation} {container : String}
    (planned : p.plan current container = .ok (.scaleTo candidate)) :
    candidate.family = current.family := by
  obtain ⟨cpu, memory, -, -, rfl⟩ := plan_scaleTo planned
  rfl

end Headroom.Sizing
