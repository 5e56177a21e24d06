import Headroom.Proofs.Numbering

/-!
What a planned allocation changes. The rule by which a plan raises the limits of the watched
container and the rule by which a registry checks limits are stated apart from each other;
they agree on every allocation that a registry accepts, for any containers in any number: no
limit is above its task's memory, so none is cut off when both grow alike, and the plan is
accepted again (`plan_grows_watched`).
-/
namespace Headroom

/-- What becomes of a container when its task's memory grows and the limits of one name grow
with it. -/
structure Container.GrownWith (watched : String) (before after : UInt32)
    (old new : Container) : Prop where
  name : new.name = old.name
  image : new.image = old.image
  cpu : new.cpu = old.cpu
  reservation : new.memoryReservation = old.memoryReservation
  others : old.name ≠ watched → new = old
  unlimited : old.memory = none → new.memory = none
  /-- The limit grows by as much as the task, and is as far from the task's memory as it was. -/
  limited : old.name = watched → ∀ limit, old.memory = some limit →
    ∃ grown, new.memory = some grown ∧
      grown.toNat = limit.toNat + (after.toNat - before.toNat) ∧
      grown.toNat + (before.toNat - limit.toNat) = after.toNat

namespace Sizing

/-- A limit within the task's memory grows by as much as the task: it is not cut off. -/
theorem grow_memory {before after limit : UInt32} {c : Container} (limited : c.memory = some limit)
    (within : limit ≤ before) (more : before < after) :
    ∃ grown, (Container.grow (after.toNat - before.toNat).toUInt32 after c).memory = some grown ∧
      grown.toNat = limit.toNat + (after.toNat - before.toNat) := by
  refine ⟨_, congrArg (Option.map _) limited, ?_⟩
  have small : after.toNat ≤ UInt32.size - 1 := Nat.le_sub_one_of_lt after.toNat_lt
  rw [UInt32.le_iff_toNat_le] at within
  rw [UInt32.lt_iff_toNat_lt] at more
  rw [toNat_toUInt32_of_le (Nat.min_le_right _ _), toNat_toUInt32_of_le (Nat.sub_le _ _)]
  omega

/-- Every container of a resized allocation comes from the one in its place. -/
theorem grownWith_resize {current : Allocation} (container : String) (cpu : UInt32)
    {memory : UInt32} (more : current.memory < memory)
    (limits : ∀ c ∈ current.containers, ∀ limit, c.memory = some limit →
      limit ≤ current.memory) :
    List.Forall₂ (Container.GrownWith container current.memory memory) current.containers
      (resize current container cpu memory).containers := by
  simp only [resize, List.forall₂_map_right_iff, List.forall₂_same]
  intro c member
  split
  · rename_i watched
    refine ⟨rfl, rfl, rfl, rfl, fun other => absurd watched other, ?_, ?_⟩
    · intro unlimited
      simp [Container.grow, unlimited]
    · intro _ limit limited
      have within := limits c member limit limited
      obtain ⟨grown, raised, amount⟩ := grow_memory limited within more
      refine ⟨grown, raised, amount, ?_⟩
      rw [UInt32.le_iff_toNat_le] at within
      rw [UInt32.lt_iff_toNat_lt] at more
      omega
  · rename_i other
    exact ⟨rfl, rfl, rfl, rfl, fun _ => rfl, id, fun watched => absurd watched other⟩

/-- A plan made of an allocation that a registry accepts is accepted by every registry. It
differs from that allocation in its sizes and in the limits of the watched container, which
keep their distance to the task's memory. -/
theorem Policy.plan_grows_watched {p : Policy} {current candidate : Allocation}
    {container : String} (fixed : p.cpuFollowsMemory = false) (fit : current.Registrable)
    (planned : p.plan current container = .ok (.scaleTo candidate)) :
    (∀ r : Registry, (r.register candidate).1 =
        .ok ⟨candidate.family, r.nextNumber candidate.family⟩) ∧
      candidate.family = current.family ∧ candidate.number = current.number ∧
      List.Forall₂ (Container.GrownWith container current.memory candidate.memory)
        current.containers candidate.containers := by
  have accepted := plan_registrable fixed planned fit
  obtain ⟨cpu, memory, -, more, rfl⟩ := plan_scaleTo planned
  exact ⟨fun r => congrArg Prod.fst (r.register_eq_seed accepted), rfl, rfl,
    grownWith_resize container cpu more fit.limits⟩

/-- A task near the largest memory that can be told, with limits up to its own size, under
one name twice. -/
def crowded : Allocation where
  family := "api"
  number := 7
  cpu := 256
  memory := 4294967000
  containers :=
    [{ name := "api", memory := some 4294967000, memoryReservation := some 256 },
      { name := "sidecar", image := some "proxy:1", memory := some 64 },
      { name := "api", cpu := some 128, memory := some 1 },
      { name := "api" }]

def crowdedNext : Allocation :=
  { crowded with
    memory := 4294967256
    containers :=
      [{ name := "api", memory := some 4294967256, memoryReservation := some 256 },
        { name := "sidecar", image := some "proxy:1", memory := some 64 },
        { name := "api", cpu := some 128, memory := some 257 },
        { name := "api" }] }

theorem crowded_grows :
    crowded.Registrable ∧
      Policy.plan { maxMemory := 4294967295 } crowded "api" = .ok (.scaleTo crowdedNext) ∧
      (∀ r : Registry, (r.register crowdedNext).1 = .ok ⟨"api", r.nextNumber "api"⟩) ∧
      List.Forall₂ (Container.GrownWith "api" 4294967000 4294967256) crowded.containers
        crowdedNext.containers := by
  have fit : crowded.Registrable := by decide +kernel
  have planned : Policy.plan { maxMemory := 4294967295 } crowded "api" =
      .ok (.scaleTo crowdedNext) := by decide +kernel
  obtain ⟨accepted, -, -, grown⟩ := Policy.plan_grows_watched rfl fit planned
  exact ⟨fit, planned, accepted, grown⟩

end Sizing
end Headroom
