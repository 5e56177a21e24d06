import Headroom.Proofs.Sizes

/-!
Planning again and again, each time from the allocation planned before. Every plan has more
memory than the one it follows and no policy goes beyond its ceiling, so the distance to the
ceiling bounds the number of plans; `grow` is defined by recursion on it. What holds of each
plan then holds along the way (`grow_fed`, `grow_forall`), and the way ends where there is
nothing left to do, or at a size that the platform does not offer (`growth_bounded`).
-/
namespace Headroom.Sizing

/-- The allocations planned one after the other, and what the last plan comes to, which is
none of them. -/
structure Growth where
  planned : List Allocation
  last : Except Error Decision
  deriving DecidableEq, Repr

namespace Policy

variable {p : Policy} {current next start : Allocation} {container : String}

/-- A plan to grow stays within the ceiling. -/
theorem plan_within (planned : p.plan current container = .ok (.scaleTo next)) :
    next.memory ≤ p.maxMemory := by
  obtain ⟨cpu, memory, sized, -, rfl⟩ := plan_scaleTo planned
  exact sizes_within (p.target_le current.memory) sized

/-- A plan to grow takes an offered pair where only some are offered. -/
theorem plan_offered (fargate : p.platform = .fargate)
    (planned : p.plan current container = .ok (.scaleTo next)) :
    isOffered next.cpu next.memory = true := by
  obtain ⟨cpu, memory, sized, -, rfl⟩ := plan_scaleTo planned
  exact (sizes_least fargate sized).1.offered

/-- A plan to grow takes no cpu away, unless cpu follows memory. -/
theorem plan_cpu (fixed : p.cpuFollowsMemory = false)
    (planned : p.plan current container = .ok (.scaleTo next)) : current.cpu ≤ next.cpu := by
  obtain ⟨cpu, memory, sized, -, rfl⟩ := plan_scaleTo planned
  exact sizes_cpu fixed sized

theorem left_lt_of_plan (planned : p.plan current container = .ok (.scaleTo next)) :
    p.maxMemory.toNat - next.memory.toNat < p.maxMemory.toNat - current.memory.toNat := by
  have more := UInt32.lt_iff_toNat_lt.mp (plan_memory planned)
  have within := UInt32.le_iff_toNat_le.mp (plan_within planned)
  omega

/-- Plan, and plan again from what has been planned, until a plan is not to grow. -/
def grow (p : Policy) (container : String) (current : Allocation) : Growth :=
  match _planned : p.plan current container with
  | .ok (.scaleTo next) =>
    let later := p.grow container next
    { later with planned := next :: later.planned }
  | last => ⟨[], last⟩
termination_by p.maxMemory.toNat - current.memory.toNat
decreasing_by exact left_lt_of_plan _planned

theorem grow_of_scaleTo (planned : p.plan current container = .ok (.scaleTo next)) :
    p.grow container current =
      { p.grow container next with planned := next :: (p.grow container next).planned } := by
  rw [grow]
  split
  · rename_i other same
    obtain rfl := Decision.scaleTo.inj (Except.ok.inj (planned.symm.trans same))
    rfl
  · rename_i stops
    exact absurd planned (stops next)

theorem grow_of_stop (stops : ∀ next, p.plan current container ≠ .ok (.scaleTo next)) :
    p.grow container current = ⟨[], p.plan current container⟩ := by
  rw [grow]
  split
  · rename_i next planned
    exact absurd planned (stops next)
  · rfl

/-- Induction along the way of a growth: from its end back to any allocation on it. -/
theorem grow_induction (p : Policy) (container : String) {motive : Allocation → Prop}
    (stop : ∀ current, (∀ next, p.plan current container ≠ .ok (.scaleTo next)) → motive current)
    (step : ∀ current next, p.plan current container = .ok (.scaleTo next) → motive next →
      motive current)
    (start : Allocation) : motive start := by
  induction start using grow.induct p container with
  | case1 current next planned later => exact step current next planned later
  | case2 current stops => exact stop current stops

/-- Every allocation on the way is what is planned from the one before. -/
theorem grow_fed (p : Policy) (container : String) (start : Allocation) :
    (start :: (p.grow container start).planned).IsChain fun before after =>
      p.plan before container = .ok (.scaleTo after) := by
  induction start using grow_induction p container with
  | stop current stops =>
    rw [grow_of_stop stops]
    exact .singleton current
  | step current next planned ih =>
    rw [grow_of_scaleTo planned]
    exact .cons_cons planned ih

/-- What holds of every plan to grow holds of all that is planned on the way. -/
theorem grow_forall {P : Allocation → Prop}
    (holds : ∀ current next, p.plan current container = .ok (.scaleTo next) → P next)
    (start : Allocation) : ∀ a ∈ (p.grow container start).planned, P a := by
  induction start using grow_induction p container with
  | stop current stops => simp [grow_of_stop stops]
  | step current next planned ih =>
    rw [grow_of_scaleTo planned]
    exact List.forall_mem_cons.mpr ⟨holds current next planned, ih⟩

/-- The way ends at an allocation from which nothing more is planned. -/
theorem grow_stops (p : Policy) (container : String) (start : Allocation) :
    (p.grow container start).last =
        p.plan ((p.grow container start).planned.getLastD start) container ∧
      ∀ next, (p.grow container start).last ≠ .ok (.scaleTo next) := by
  induction start using grow_induction p container with
  | stop current stops =>
    rw [grow_of_stop stops]
    exact ⟨rfl, stops⟩
  | step current next planned ih =>
    rw [grow_of_scaleTo planned]
    simpa only [List.getLastD_cons] using ih

theorem length_grow_le (p : Policy) (container : String) (start : Allocation) :
    (p.grow container start).planned.length ≤ p.maxMemory.toNat - start.memory.toNat := by
  induction start using grow_induction p container with
  | stop current stops => simp [grow_of_stop stops]
  | step current next planned ih =>
    have less := left_lt_of_plan planned
    rw [grow_of_scaleTo planned, List.length_cons]
    omega

/-- A valid policy stops at what it finds nothing to do for, or where the platform offers no
size. -/
theorem plan_stop (valid : p.validate = .ok ())
    (stops : ∀ next, p.plan current container ≠ .ok (.scaleTo next)) :
    p.plan current container = .ok (.saturated current.memory p.maxMemory) ∨
      p.platform = .fargate ∧ ∃ detail, p.plan current container = .error (.validation detail) := by
  cases planned : p.plan current container with
  | error error =>
    obtain ⟨fargate, detail, rfl⟩ := plan_error valid planned
    exact .inr ⟨fargate, detail, rfl⟩
  | ok decision =>
    cases decision with
    | scaleTo next => exact absurd planned (stops next)
    | saturated memory ceiling =>
      obtain ⟨rfl, rfl, -⟩ := plan_saturated planned
      exact .inl rfl

section

variable (free : p.platform = .unconstrained)
include free

theorem plan_met (planned : p.plan current container = .ok (.scaleTo next)) :
    next.memory = p.target current.memory := by
  obtain ⟨cpu, memory, sized, -, rfl⟩ := plan_scaleTo planned
  exact (sizes_met free sized).1

/-- The way ends at the ceiling or above it; only no factor raises an allocation without
memory. -/
theorem ceiling_of_stop (valid : p.validate = .ok ())
    (stops : ∀ next, p.plan current container ≠ .ok (.scaleTo next)) :
    p.maxMemory ≤ current.memory ∨ current.memory = 0 ∧ ∃ factor, p.step = .times factor := by
  rcases plan_stop valid stops with saturated | ⟨fargate, -⟩
  · exact (plan_saturated saturated).2.2
  · rw [free] at fargate
    cases fargate

/-- From below the ceiling the way leads to the ceiling, unless it begins without memory. -/
theorem grow_reaches (valid : p.validate = .ok ()) (low : start.memory < p.maxMemory)
    (moves : start.memory ≠ 0 ∨ ∃ more, p.step = .plus more) :
    ∃ last, (p.grow container start).planned.getLast? = some last ∧ last.memory = p.maxMemory := by
  obtain ⟨last, stops⟩ := grow_stops p container start
  rw [last] at stops
  have ceiling := ceiling_of_stop free valid stops
  cases ended : (p.grow container start).planned.getLast? with
  | none =>
    -- nothing is planned, so the start would be an end, which it is too low for
    rw [List.getLastD_eq_getLast?, ended, Option.getD_none] at ceiling
    rcases ceiling with high | ⟨zero, factor, times⟩
    · exact absurd low (UInt32.not_lt.mpr high)
    · rcases moves with nonzero | ⟨more, plus⟩
      · exact absurd zero nonzero
      · rw [times] at plus
        cases plus
  | some final =>
    rw [List.getLastD_eq_getLast?, ended, Option.getD_some] at ceiling
    -- whatever has been planned has memory, and no more than the ceiling
    have member := List.mem_of_getLast? ended
    have within := grow_forall (fun _ _ planned => plan_within planned) start final member
    have positive : 0 < final.memory := grow_forall (P := fun a => 0 < a.memory)
      (fun current next planned => UInt32.lt_of_le_of_lt (UInt32.zero_le) (plan_memory planned))
      start final member
    refine ⟨final, rfl, UInt32.le_antisymm within ?_⟩
    exact ceiling.resolve_right fun zero => absurd positive (by simp [zero.1])

end

theorem ceilDiv_step {memory step ceiling : Nat} (positive : 0 < step) (low : memory < ceiling) :
    (ceiling - memory) ⌈/⌉ step = (ceiling - min (memory + step) ceiling) ⌈/⌉ step + 1 := by
  simp only [Nat.ceilDiv_eq_add_pred_div]
  rcases Nat.le_total (memory + step) ceiling with within | beyond
  · rw [Nat.min_eq_left within, ← Nat.add_div_right _ positive]
    congr 1
    omega
  · have rest : (ceiling - ceiling + step - 1) / step = 0 := Nat.div_eq_of_lt (by omega)
    rw [Nat.min_eq_right beyond, rest]
    exact Nat.div_eq_of_lt_le (by omega) (by omega)

/-- The number of steps of one size up to the ceiling. -/
theorem length_grow (valid : p.validate = .ok ()) (free : p.platform = .unconstrained)
    {more : UInt32} (plus : p.step = .plus more) (container : String) (start : Allocation) :
    (p.grow container start).planned.length =
      (p.maxMemory.toNat - start.memory.toNat) ⌈/⌉ more.toNat := by
  induction start using grow_induction p container with
  | stop current stops =>
    rw [grow_of_stop stops]
    rcases ceiling_of_stop free valid stops with high | ⟨-, factor, times⟩
    · rw [Nat.sub_eq_zero_of_le (UInt32.le_iff_toNat_le.mp high), zero_ceilDiv]
      rfl
    · rw [times] at plus
      cases plus
  | step current next planned ih =>
    have raised := (p.step_raises valid current.memory).resolve_right (by simp [plus])
    have low := UInt32.lt_iff_toNat_lt.mp
      (UInt32.lt_of_lt_of_le (plan_memory planned) (plan_within planned))
    rw [grow_of_scaleTo planned, List.length_cons, ih, plan_met free planned, p.target_toNat]
    simp only [plus, Step.apply] at raised ⊢
    exact (ceilDiv_step (by omega) low).symm

/-- What comes of planning again and again from an allocation. -/
structure Bounded (p : Policy) (container : String) (start : Allocation) (g : Growth) :
    Prop where
  /-- Every allocation on the way is planned from the one before. -/
  fed : (start :: g.planned).IsChain fun before after =>
    p.plan before container = .ok (.scaleTo after)
  /-- There are no more than the ceiling leaves room for; from there on, none. -/
  few : g.planned.length ≤ p.maxMemory.toNat - start.memory.toNat
  stopped : g.last = p.plan (g.planned.getLastD start) container
  ends : g.last = .ok (.saturated (g.planned.getLastD start).memory p.maxMemory) ∨
    p.platform = .fargate ∧ ∃ detail, g.last = .error (.validation detail)
  rises : (start :: g.planned).IsChain (·.memory < ·.memory)
  within : ∀ a ∈ g.planned, a.memory ≤ p.maxMemory
  cpu : p.cpuFollowsMemory = false → (start :: g.planned).IsChain (·.cpu ≤ ·.cpu)
  offered : p.platform = .fargate → ∀ a ∈ g.planned, isOffered a.cpu a.memory = true
  /-- Steps of one size, where any size is offered, are counted out. -/
  even : ∀ more, p.step = .plus more → p.platform = .unconstrained →
    start.memory < p.maxMemory →
      g.planned.length = (p.maxMemory.toNat - start.memory.toNat) ⌈/⌉ more.toNat ∧
        ∃ last, g.planned.getLast? = some last ∧ last.memory = p.maxMemory

/-- Planning again and again ends, from any allocation and whatever the steps. -/
theorem growth_bounded (valid : p.validate = .ok ()) (container : String) (start : Allocation) :
    p.Bounded container start (p.grow container start) := by
  have fed := p.grow_fed container start
  obtain ⟨stopped, stops⟩ := p.grow_stops container start
  refine ⟨fed, p.length_grow_le container start, stopped, ?_, ?_, ?_, ?_, ?_, ?_⟩
  · rw [stopped] at stops ⊢
    exact plan_stop valid stops
  · exact fed.imp fun _ _ planned => plan_memory planned
  · exact grow_forall (fun _ _ planned => plan_within planned) start
  · exact fun fixed => fed.imp fun _ _ planned => plan_cpu fixed planned
  · exact fun fargate => grow_forall (fun _ _ planned => plan_offered fargate planned) start
  · exact fun more plus free low => ⟨length_grow valid free plus container start,
      grow_reaches free valid low (.inr ⟨more, plus⟩)⟩

/-- Steps that do not divide the way to the ceiling. -/
def uneven : Policy := { step := .plus 300, maxMemory := 1024 }

def taskOf (memory : UInt32) : Allocation :=
  { family := "api", number := 1, cpu := 256, memory, containers := [{ name := "api" }] }

theorem uneven_bounded :
    uneven.validate = .ok () ∧
      uneven.Bounded "api" (taskOf 512)
        ⟨[taskOf 812, taskOf 1024], .ok (.saturated 1024 1024)⟩ := by
  have grown : uneven.grow "api" (taskOf 512) =
      ⟨[taskOf 812, taskOf 1024], .ok (.saturated 1024 1024)⟩ := by decide +kernel
  refine ⟨rfl, ?_⟩
  rw [← grown]
  exact growth_bounded rfl "api" (taskOf 512)

end Policy
end Headroom.Sizing
