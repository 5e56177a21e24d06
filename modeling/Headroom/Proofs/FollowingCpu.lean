import Headroom.Proofs.Sizes

/-!
Cpu that follows memory. The rule asks for the least number of units that takes none away and
keeps the ratio of cpu to memory (`isLeast_units`), whatever the sizes; a plan holds the low 32
bits of that number. So a plan has the units that it should for every number that 32 bits can
tell, and for any other it lets the ratio drop (`plan_cpu_follows`).
-/
namespace Headroom.Sizing

/-- The units that some cpu and memory grow to with a target in MiB, when cpu follows memory. -/
def units (cpu memory target : Nat) : Nat := max cpu ((cpu * target) ⌈/⌉ max memory 1)

/-- Units are enough for a target when none is taken away and the ratio of cpu to memory does
not drop. Where there is no memory, it is taken as 1 MiB. -/
structure Enough (cpu memory target n : Nat) : Prop where
  kept : cpu ≤ n
  ratio : cpu * target ≤ max memory 1 * n

section

variable {cpu memory target n : Nat}

theorem divisor_pos (memory : Nat) : 0 < max memory 1 :=
  Nat.lt_of_lt_of_le Nat.one_pos (Nat.le_max_right _ _)

theorem enough_iff : Enough cpu memory target n ↔ units cpu memory target ≤ n := by
  rw [units, max_le_iff, ceilDiv_le_iff_le_mul (divisor_pos memory)]
  constructor
  · exact fun enough => ⟨enough.kept, enough.ratio⟩
  · exact fun ⟨kept, ratio⟩ => ⟨kept, ratio⟩

/-- The units of the rule are the fewest that are enough. -/
theorem isLeast_units : IsLeast {n | Enough cpu memory target n} (units cpu memory target) :=
  ⟨enough_iff.mpr le_rfl, fun _ enough => enough_iff.mp enough⟩

/-- Units that go beyond a bound do so to keep the ratio, when the cpu was within it. -/
theorem units_le_iff (within : cpu ≤ n) :
    units cpu memory target ≤ n ↔ cpu * target ≤ max memory 1 * n := by
  rw [← enough_iff]
  exact ⟨Enough.ratio, fun ratio => ⟨within, ratio⟩⟩

end

theorem followingCpu_toNat (cpu memory target : UInt32) :
    (followingCpu cpu memory target).toNat =
      units cpu.toNat memory.toNat target.toNat % UInt32.size := by
  have quotient : (cpu.toNat * target.toNat + (max memory.toNat 1 - 1)) / max memory.toNat 1 =
      (cpu.toNat * target.toNat) ⌈/⌉ max memory.toNat 1 := by
    rw [Nat.ceilDiv_eq_add_pred_div, Nat.add_sub_assoc (divisor_pos memory.toNat)]
  simp only [followingCpu, quotient, units, Nat.toUInt32_eq, UInt32.toNat_ofNat', UInt32.size]
  rw [max_comm]

/-- What a plan makes of cpu that follows memory. -/
structure FollowsMemory (current next : Allocation) (needed : Nat) : Prop where
  low_bits : next.cpu.toNat = needed % UInt32.size
  exact_iff : next.cpu.toNat = needed ↔ needed < UInt32.size
  /-- The fewest units that are enough are planned where 32 bits can tell them. -/
  fewest : needed < UInt32.size →
    IsLeast {n | Enough current.cpu.toNat current.memory.toNat next.memory.toNat n}
      next.cpu.toNat
  /-- The ratio drops wherever they cannot. -/
  ratio_iff : current.cpu.toNat * next.memory.toNat ≤ max current.memory.toNat 1 * next.cpu.toNat ↔
    needed < UInt32.size
  /-- Whether they can is seen from the sizes. -/
  fits_iff : needed < UInt32.size ↔ current.cpu.toNat * next.memory.toNat ≤
    max current.memory.toNat 1 * (UInt32.size - 1)

theorem FollowsMemory.of_low_bits {current next : Allocation} {needed : Nat}
    (rule : needed = units current.cpu.toNat current.memory.toNat next.memory.toNat)
    (low_bits : next.cpu.toNat = needed % UInt32.size) : FollowsMemory current next needed := by
  have bits : next.cpu.toNat < UInt32.size := next.cpu.toNat_lt
  have told : needed < UInt32.size → next.cpu.toNat = needed :=
    fun fits => low_bits.trans (Nat.mod_eq_of_lt fits)
  have ratio : current.cpu.toNat * next.memory.toNat ≤ max current.memory.toNat 1 * next.cpu.toNat →
      needed < UInt32.size := by
    intro ratio
    -- with the cpu that there was, as many units as the larger of the two would be enough
    have most : current.cpu.toNat < UInt32.size := current.cpu.toNat_lt
    have enough : Enough current.cpu.toNat current.memory.toNat next.memory.toNat
        (max current.cpu.toNat next.cpu.toNat) :=
      ⟨Nat.le_max_left _ _, ratio.trans (Nat.mul_le_mul_left _ (Nat.le_max_right _ _))⟩
    have few := enough_iff.mp enough
    omega
  refine ⟨low_bits, ⟨fun same => same ▸ bits, told⟩, ?_, ⟨ratio, ?_⟩, ?_⟩
  · intro fits
    rw [told fits, rule]
    exact isLeast_units
  · intro fits
    rw [told fits, rule]
    exact (isLeast_units.1 : Enough _ _ _ _).ratio
  · rw [← units_le_iff (Nat.le_sub_one_of_lt current.cpu.toNat_lt), ← rule]
    exact Nat.lt_iff_le_pred (by decide)

namespace Policy

/-- Where any size is offered and cpu follows memory, a plan to grow holds the low 32 bits of
the units that the rule asks for. -/
theorem plan_cpu_follows {p : Policy} {current next : Allocation} {container : String}
    (free : p.platform = .unconstrained) (follows : p.cpuFollowsMemory = true)
    (planned : p.plan current container = .ok (.scaleTo next)) :
    FollowsMemory current next
      (units current.cpu.toNat current.memory.toNat next.memory.toNat) := by
  obtain ⟨cpu, memory, sized, -, rfl⟩ := plan_scaleTo planned
  obtain ⟨fargate, -⟩ | ⟨-, sizes⟩ := sizes_cases sized
  · rw [free] at fargate
    cases fargate
  · rw [if_pos follows] at sizes
    obtain ⟨rfl, rfl⟩ := Prod.mk.inj sizes
    exact .of_low_bits rfl (followingCpu_toNat current.cpu current.memory _)

/-- A policy by which cpu follows memory, up to a ceiling. -/
def proportional : Policy := { maxMemory := 8192, cpuFollowsMemory := true }

/-- An allocation whose cpu does not grow by a whole number of units. -/
def oddRatio : Allocation := { family := "api", number := 3, cpu := 300, memory := 1000 }

theorem oddRatio_follows :
    proportional.plan oddRatio "api" = .ok (.scaleTo { oddRatio with cpu := 377, memory := 1256 }) ∧
      FollowsMemory oddRatio { oddRatio with cpu := 377, memory := 1256 } 377 := by
  have planned : proportional.plan oddRatio "api" =
      .ok (.scaleTo { oddRatio with cpu := 377, memory := 1256 }) := by decide +kernel
  have needed : units 300 1000 1256 = 377 := by decide +kernel
  refine ⟨planned, ?_⟩
  rw [← needed]
  exact plan_cpu_follows rfl rfl planned

/-- An allocation whose cpu needs more than 32 bits after one step of memory. -/
def wideCpu : Allocation := { family := "api", number := 3, cpu := 3000000000, memory := 512 }

/-- The rule asks for more cpu, and the plan has less than before. -/
theorem wideCpu_shrinks :
    proportional.validate = .ok () ∧ proportional.platform = .unconstrained ∧
      proportional.cpuFollowsMemory = true ∧
      ∃ next, proportional.plan wideCpu "api" = .ok (.scaleTo next) ∧
        next.cpu.toNat ≠
          units wideCpu.cpu.toNat wideCpu.memory.toNat next.memory.toNat ∧
        next.cpu < wideCpu.cpu :=
  ⟨rfl, rfl, rfl, { wideCpu with cpu := 205032704, memory := 768 }, by decide +kernel,
    by decide +kernel, by decide +kernel⟩

end Policy
end Headroom.Sizing
