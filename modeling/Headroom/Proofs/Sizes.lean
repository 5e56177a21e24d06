import Headroom.Proofs.Ceiling
import Headroom.Proofs.Planning

/-!
What a plan comes to, whatever the policy, the allocation and the container. The policy's
target decides: a plan that finds nothing to do has reached it (`plan_saturated`), any other
one has at least that much memory, within the ceiling. Where any size is offered it has just
that much; where only some are, it is the least pair of them that suits (`fit?_least`),
and a plan fails for no other reason than that no pair does (`plan_by_target`).
-/
namespace Headroom.Sizing

/-- A step of a valid policy raises memory, except that no factor raises zero. -/
theorem Policy.step_raises {p : Policy} (valid : p.validate = .ok ()) (memory : UInt32) :
    memory.toNat < p.step.apply memory ∨ memory = 0 ∧ ∃ factor, p.step = .times factor := by
  cases step : p.step with
  | plus more =>
    left
    have nonzero : more ≠ 0 := by
      rintro rfl
      simp [validate, step] at valid
    have positive : 0 < more.toNat :=
      Nat.pos_of_ne_zero fun zero => nonzero (UInt32.toNat_inj.mp zero)
    simp only [Step.apply]
    omega
  | times factor =>
    have above : factor.isFinite ∧ factor > 1 := by
      by_contra low
      simp [validate, step, low] at valid
    rcases Nat.eq_zero_or_pos memory.toNat with zero | positive
    · exact .inr ⟨UInt32.toNat_inj.mp zero, factor, rfl⟩
    · exact .inl (Decimal.lt_ceiling_mul positive above.1 above.2)

theorem Policy.target_toNat (p : Policy) (memory : UInt32) :
    (p.target memory).toNat = min (p.step.apply memory) p.maxMemory.toNat :=
  toNat_toUInt32_of_le (Nat.min_le_right _ _)

theorem Policy.target_le (p : Policy) (memory : UInt32) : p.target memory ≤ p.maxMemory := by
  rw [UInt32.le_iff_toNat_le, p.target_toNat]
  exact Nat.min_le_right _ _

/-- Not after another pair, in order of memory and then of cpu. -/
def Precedes (a b : UInt32 × UInt32) : Prop := a.2 < b.2 ∨ a.2 = b.2 ∧ a.1 ≤ b.1

theorem Precedes.refl (a : UInt32 × UInt32) : Precedes a a := .inr ⟨rfl, UInt32.le_refl _⟩

theorem Precedes.trans {a b c : UInt32 × UInt32} (first : Precedes a b) (second : Precedes b c) :
    Precedes a c := by
  unfold Precedes at *
  grind

theorem precedes_of_smaller {a b : UInt32 × UInt32} (less : smaller a b = true) :
    Precedes a b := by
  simp only [smaller, Bool.or_eq_true, Bool.and_eq_true, decide_eq_true_eq, beq_iff_eq] at less
  unfold Precedes
  grind

theorem precedes_of_not_smaller {a b : UInt32 × UInt32} (least : smaller a b = false) :
    Precedes b a := by
  simp only [smaller, Bool.or_eq_false_iff, Bool.and_eq_false_iff, decide_eq_false_iff_not,
    beq_eq_false_iff_ne] at least
  unfold Precedes
  grind

theorem smallest?_eq_none_iff {pairs : List (UInt32 × UInt32)} :
    smallest? pairs = none ↔ pairs = [] := by
  cases pairs with
  | nil => simp [smallest?]
  | cons pair rest =>
    unfold smallest?
    split <;> simp

theorem smallest?_precedes {pairs : List (UInt32 × UInt32)} {best : UInt32 × UInt32}
    (found : smallest? pairs = some best) : ∀ pair ∈ pairs, Precedes best pair := by
  induction pairs generalizing best with
  | nil => cases found
  | cons first rest ih =>
    intro pair member
    unfold smallest? at found
    split at found
    · rename_i other smallest
      -- the least pair of the rest is compared with the first
      have least := ih smallest
      obtain rfl := Option.some.inj found
      cases less : smaller other first with
      | true =>
        rcases List.mem_cons.mp member with rfl | member
        · exact precedes_of_smaller less
        · exact least pair member
      | false =>
        rcases List.mem_cons.mp member with rfl | member
        · exact .refl pair
        · exact (precedes_of_not_smaller less).trans (least pair member)
    · rename_i none
      obtain rfl := smallest?_eq_none_iff.mp none
      obtain rfl := Option.some.inj found
      obtain rfl := List.mem_singleton.mp member
      exact .refl _

/-- An offered pair with at least the given cpu and memory, within the ceiling. -/
structure Suits (leastCpu : UInt32) (leastMemory : Nat) (ceiling : UInt32)
    (pair : UInt32 × UInt32) : Prop where
  offered : isOffered pair.1 pair.2 = true
  cpu : leastCpu ≤ pair.1
  memory : leastMemory ≤ pair.2.toNat
  ceiling : pair.2 ≤ ceiling

section

variable {leastCpu leastMemory ceiling : UInt32} {pair : UInt32 × UInt32}

theorem mem_filter_offered :
    (pair ∈ offered.filter fun (cpu, memory) =>
        leastCpu ≤ cpu && leastMemory ≤ memory && memory ≤ ceiling) ↔
      Suits leastCpu leastMemory.toNat ceiling pair := by
  rw [List.mem_filter]
  constructor
  · rintro ⟨member, within⟩
    simp only [Bool.and_eq_true, decide_eq_true_eq] at within
    exact ⟨by simpa [isOffered] using member, within.1.1, UInt32.le_iff_toNat_le.mp within.1.2,
      within.2⟩
  · intro suits
    refine ⟨by simpa [isOffered] using suits.offered, ?_⟩
    simp [suits.cpu, UInt32.le_iff_toNat_le.mpr suits.memory, suits.ceiling]

/-- A fitting pair is the least of those that suit. -/
theorem fit?_least (found : fit? leastCpu leastMemory ceiling = some pair) :
    Suits leastCpu leastMemory.toNat ceiling pair ∧
      ∀ other, Suits leastCpu leastMemory.toNat ceiling other → Precedes pair other :=
  ⟨mem_filter_offered.mp (smallest?_mem found),
    fun other suits => smallest?_precedes found other (mem_filter_offered.mpr suits)⟩

/-- None is found only where none suits. -/
theorem fit?_eq_none_iff :
    fit? leastCpu leastMemory ceiling = none ↔
      ∀ pair, ¬ Suits leastCpu leastMemory.toNat ceiling pair := by
  rw [fit?, smallest?_eq_none_iff, List.eq_nil_iff_forall_not_mem]
  simp only [mem_filter_offered]

end

namespace Policy

variable {p : Policy} {current : Allocation} {container : String}

/-- A policy finds nothing to do only where the memory is at the ceiling, or zero. -/
theorem plan_saturated {memory ceiling : UInt32}
    (planned : p.plan current container = .ok (.saturated memory ceiling)) :
    memory = current.memory ∧ ceiling = p.maxMemory ∧
      (ceiling ≤ memory ∨ memory = 0 ∧ ∃ factor, p.step = .times factor) := by
  have valid := valid_of_plan planned
  rw [plan_eq valid] at planned
  split at planned
  · rename_i low
    simp only [Except.ok.injEq, Decision.saturated.injEq] at planned
    obtain ⟨rfl, rfl⟩ := planned
    refine ⟨rfl, rfl, ?_⟩
    obtain raised | zero := p.step_raises valid current.memory
    · left
      rw [UInt32.le_iff_toNat_le, p.target_toNat] at low
      rw [UInt32.le_iff_toNat_le]
      omega
    · exact .inr zero
  · cases sized : p.sizes current (p.target current.memory) <;> rw [sized] at planned <;>
      cases planned

/-- Where only some sizes are offered, those for a target are the least pair that suits. -/
theorem sizes_least (fargate : p.platform = .fargate) {target : UInt32} {pair : UInt32 × UInt32}
    (sized : p.sizes current target = .ok pair) :
    Suits current.cpu target.toNat p.maxMemory pair ∧
      ∀ other, Suits current.cpu target.toNat p.maxMemory other → Precedes pair other := by
  rcases sizes_cases sized with ⟨-, found⟩ | ⟨free, -⟩
  · exact fit?_least found
  · rw [fargate] at free
    cases free

/-- Where any size is offered, they are the target itself. -/
theorem sizes_met (free : p.platform = .unconstrained) {target : UInt32} {pair : UInt32 × UInt32}
    (sized : p.sizes current target = .ok pair) :
    pair.2 = target ∧ (p.cpuFollowsMemory = false → pair.1 = current.cpu) := by
  rcases sizes_cases sized with ⟨fargate, -⟩ | ⟨-, rfl⟩
  · rw [free] at fargate
    cases fargate
  · exact ⟨rfl, fun fixed => by simp [fixed]⟩

/-- What a plan comes to for a target in MiB. -/
structure PlansFor (p : Policy) (current : Allocation) (target : Nat)
    (plan : Except Error Decision) : Prop where
  /-- At the target or above it there is nothing to do. -/
  saturated_iff : ∀ memory ceiling, plan = .ok (.saturated memory ceiling) ↔
    target ≤ current.memory.toNat ∧ memory = current.memory ∧ ceiling = p.maxMemory
  rises : ∀ next, plan = .ok (.scaleTo next) →
    current.memory.toNat < target ∧ target ≤ next.memory.toNat ∧ next.memory ≤ p.maxMemory
  /-- Where any size is offered, the target is met. -/
  met : p.platform = .unconstrained → ∀ next, plan = .ok (.scaleTo next) →
    next.memory.toNat = target ∧ (p.cpuFollowsMemory = false → next.cpu = current.cpu)
  /-- Where only some sizes are, the least pair that suits is taken. -/
  fitted : p.platform = .fargate → ∀ next, plan = .ok (.scaleTo next) →
    Suits current.cpu target p.maxMemory (next.cpu, next.memory) ∧
      ∀ pair, Suits current.cpu target p.maxMemory pair → Precedes (next.cpu, next.memory) pair
  fails_iff : (∃ detail, plan = .error (.validation detail)) ↔
    current.memory.toNat < target ∧ p.platform = .fargate ∧
      ∀ pair, ¬ Suits current.cpu target p.maxMemory pair
  failure : ∀ error, plan = .error error → ∃ detail, error = .validation detail

theorem PlansFor.saturated {target : Nat} (reached : target ≤ current.memory.toNat) :
    p.PlansFor current target (.ok (.saturated current.memory p.maxMemory)) where
  saturated_iff memory ceiling := by simp [reached, eq_comm]
  rises next planned := by cases planned
  met _ next planned := by cases planned
  fitted _ next planned := by cases planned
  fails_iff := ⟨by rintro ⟨_, ⟨⟩⟩, fun fails => absurd fails.1 (Nat.not_lt.mpr reached)⟩
  failure error planned := by cases planned

theorem PlansFor.failed {target : UInt32} (above : current.memory < target) {error : Error}
    (unsized : p.sizes current target = .error error) :
    p.PlansFor current target.toNat (.error error) where
  saturated_iff memory ceiling :=
    ⟨by rintro ⟨⟩, fun reached => absurd (UInt32.lt_iff_toNat_lt.mp above) (by omega)⟩
  rises next planned := by cases planned
  met _ next planned := by cases planned
  fitted _ next planned := by cases planned
  fails_iff := by
    obtain ⟨fargate, none, detail, rfl⟩ := sizes_error unsized
    exact ⟨fun _ => ⟨UInt32.lt_iff_toNat_lt.mp above, fargate, fit?_eq_none_iff.mp none⟩,
      fun _ => ⟨detail, rfl⟩⟩
  failure error' planned := by
    obtain rfl := Except.error.inj planned
    exact (sizes_error unsized).2.2

theorem PlansFor.scaled {target : UInt32} (above : current.memory < target)
    (within : target ≤ p.maxMemory) {sizes : UInt32 × UInt32}
    (sized : p.sizes current target = .ok sizes) :
    p.PlansFor current target.toNat (.ok (.scaleTo (resize current container sizes.1 sizes.2)))
    where
  saturated_iff memory ceiling :=
    ⟨by rintro ⟨⟩, fun reached => absurd (UInt32.lt_iff_toNat_lt.mp above) (by omega)⟩
  rises next planned := by
    obtain rfl := Decision.scaleTo.inj (Except.ok.inj planned)
    exact ⟨UInt32.lt_iff_toNat_lt.mp above, UInt32.le_iff_toNat_le.mp (sizes_memory sized),
      sizes_within within sized⟩
  met free next planned := by
    obtain rfl := Decision.scaleTo.inj (Except.ok.inj planned)
    obtain ⟨memory, cpu⟩ := sizes_met free sized
    exact ⟨congrArg UInt32.toNat memory, cpu⟩
  fitted fargate next planned := by
    obtain rfl := Decision.scaleTo.inj (Except.ok.inj planned)
    exact sizes_least fargate sized
  fails_iff :=
    ⟨by rintro ⟨_, ⟨⟩⟩, fun fails => absurd (sizes_least fails.2.1 sized).1 (fails.2.2 sizes)⟩
  failure error planned := by cases planned

/-- The plan of a valid policy is decided by its target: the memory after one step, but no
more than the ceiling. -/
theorem plan_by_target (valid : p.validate = .ok ()) (current : Allocation)
    (container : String) :
    p.PlansFor current (min (p.step.apply current.memory) p.maxMemory.toNat)
      (p.plan current container) := by
  rw [← p.target_toNat, plan_eq valid]
  split
  · rename_i reached
    exact .saturated (UInt32.le_iff_toNat_le.mp reached)
  · rename_i short
    have above : current.memory < p.target current.memory := UInt32.not_le.mp short
    have within := p.target_le current.memory
    cases sized : p.sizes current (p.target current.memory) with
    | error error => exact .failed above sized
    | ok sizes => exact .scaled above within sized

/-- A policy whose steps outgrow the sizes that the platform offers for little cpu. -/
def tiered : Policy := { maxMemory := 30720, platform := .fargate }

/-- An allocation with as much memory as is offered for its cpu. -/
def tierTop : Allocation := { family := "api", number := 1, cpu := 256, memory := 2048 }

theorem tiered_by_target :
    tiered.validate = .ok () ∧
      tiered.PlansFor tierTop 2304
        (.ok (.scaleTo { tierTop with cpu := 512, memory := 3072 })) := by
  have planned : tiered.plan tierTop "api" =
      .ok (.scaleTo { tierTop with cpu := 512, memory := 3072 }) := by decide +kernel
  refine ⟨rfl, ?_⟩
  rw [← planned]
  exact plan_by_target rfl tierTop "api"

end Policy
end Headroom.Sizing
