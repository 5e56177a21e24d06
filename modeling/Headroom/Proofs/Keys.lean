import Headroom.Proofs.Admission

/-!
Whether a key tells targets apart. A key is the three names of a target with slashes between
them, and the names are free to hold slashes of their own. Among requests whose cluster names
have as many slashes, and whose service names have, a key is that of one target
(`Request.key_eq_iff`), and a request is turned away just when a cycle for its own target is
under way (`Admission.superseded_by_own_target`). Otherwise two targets can have one key, and
the one is taken for the other (`Admission.shifted_superseded`).
-/
namespace Headroom

/-- What stands before a separator is known by how many separators it holds itself. -/
theorem append_separator_injective {α : Type} [BEq α] [LawfulBEq α] {separator : α}
    {front back front' back' : List α}
    (same : front ++ separator :: back = front' ++ separator :: back')
    (count : front.count separator = front'.count separator) : front = front' ∧ back = back' := by
  induction front generalizing front' with
  | nil =>
    cases front' with
    | nil => exact ⟨rfl, List.tail_eq_of_cons_eq same⟩
    | cons first rest =>
      obtain ⟨rfl, -⟩ := List.cons.inj same
      rw [List.count_cons_self] at count
      cases count
  | cons first rest ih =>
    cases front' with
    | nil =>
      obtain ⟨rfl, -⟩ := List.cons.inj same
      rw [List.count_cons_self] at count
      cases count
    | cons first' rest' =>
      obtain ⟨rfl, later⟩ := List.cons.inj same
      rw [List.count_cons, List.count_cons, Nat.add_right_cancel_iff] at count
      obtain ⟨rfl, rfl⟩ := ih later count
      exact ⟨rfl, rfl⟩

namespace Request

/-- Two requests for one container of one service. -/
structure SameTarget (r q : Request) : Prop where
  cluster : r.cluster = q.cluster
  service : r.service = q.service
  container : r.container = q.container

/-- Two requests whose names have their slashes in the same places of the key. -/
structure SameSlashes (r q : Request) : Prop where
  cluster : r.cluster.toList.count '/' = q.cluster.toList.count '/'
  service : r.service.toList.count '/' = q.service.toList.count '/'

theorem toList_key (r : Request) :
    r.key.toList = r.cluster.toList ++ '/' :: (r.service.toList ++ '/' :: r.container.toList) := by
  simp [key, String.toList_append]

theorem SameTarget.key {r q : Request} (same : r.SameTarget q) : r.key = q.key := by
  rw [Request.key, same.cluster, same.service, same.container, Request.key]

theorem key_eq_iff {r q : Request} (slashes : r.SameSlashes q) :
    r.key = q.key ↔ r.SameTarget q := by
  constructor
  · intro same
    have chars := congrArg String.toList same
    rw [toList_key, toList_key] at chars
    obtain ⟨cluster, chars⟩ := append_separator_injective chars slashes.cluster
    obtain ⟨service, container⟩ := append_separator_injective chars slashes.service
    exact ⟨String.toList_inj.mp cluster, String.toList_inj.mp service,
      String.toList_inj.mp container⟩
  · exact SameTarget.key

end Request

namespace Admission

open Headroom.Cycle
open Headroom.Interleaving (Phase Setup)

variable {ι : Type} [DecidableEq ι] {setup : Setup ι} {s : State ι}

/-- A cycle for the target of a request is under way at the controller that it comes to. -/
def TargetBusy (setup : Setup ι) (s : State ι) (i : ι) : Prop :=
  ∃ j, (s.phase j).Works ∧ setup.controller j = setup.controller i ∧
    (setup.request j).SameTarget (setup.request i)

/-- A request is turned away exactly while a cycle for its own target is under way, and let in
otherwise, if the names of the cycles under way have their slashes where its own names do. -/
theorem superseded_by_own_target (reachable : Reachable setup s) {i : ι}
    (arriving : s.phase i = .arriving)
    (slashes : ∀ j, (s.phase j).Works → setup.controller j = setup.controller i →
      (setup.request j).SameSlashes (setup.request i)) :
    ∃ later, s.step? setup (.arrive i) = some later ∧
      (later.phase i = .finished (Controller.busyReport (setup.request i)) ↔
        TargetBusy setup s i) ∧
      (¬ TargetBusy setup s i → (later.phase i).Works) := by
  have held : (setup.request i).key ∈ (s.inFlight (setup.controller i)).keys ↔
      TargetBusy setup s i := by
    rw [reachable.keysHeld.keys]
    refine exists_congr fun j => and_congr_right fun works => and_congr_right fun here => ?_
    exact Request.key_eq_iff (slashes j works here)
  refine ⟨s.arrived setup i, by simp only [State.step?, arriving], ?_⟩
  by_cases taken : (setup.request i).key ∈ (s.inFlight (setup.controller i)).keys
  · rw [State.arrived_of_held taken]
    exact ⟨iff_of_true (Function.update_self i _ s.phase) (held.mp taken),
      fun idle => absurd (held.mp taken) idle⟩
  · rw [State.arrived_of_free taken]
    have calling : (((s.enter i (.calling (Course.start (setup.request i)))).hold
        (setup.controller i)
        ⟨(setup.request i).key :: (s.inFlight (setup.controller i)).keys⟩).phase i) =
          .calling (Course.start (setup.request i)) := Function.update_self i _ s.phase
    rw [calling]
    exact ⟨iff_of_false (by simp) (mt held.mpr taken), fun _ => trivial⟩

/-- Whoever arrives first finds its key free, and the others are yet to arrive. -/
theorem arriving_of_first {i j : ι} (other : j ≠ i) :
    (({} : State ι).arrived setup i).phase j = .arriving := by
  rw [State.arrived_of_free List.not_mem_nil]
  simp [State.enter, State.hold, other]

theorem works_of_first {i j : ι} (works : ((({} : State ι).arrived setup i).phase j).Works) :
    j = i := by
  by_contra other
  rw [arriving_of_first other] at works
  exact works

/-- Two containers of one service and the first of them again, and once more at another
controller. -/
def containers : Setup (Fin 4) where
  rules _ := {}
  controller i := if i.val = 3 then 1 else 0
  request i :=
    { cluster := "cluster/main", service := "api", container := if i.val = 1 then "log" else "app"
      family := "api", alarm := "memory" }

/-- While the first is served, the second and the fourth are let in and the third is not. -/
theorem containers_apart :
    ∃ s : State (Fin 4), Reachable containers s ∧ (∀ i, i ≠ 0 → s.phase i = .arriving) ∧
      (∃ later, s.step? containers (.arrive 1) = some later ∧ (later.phase 1).Works) ∧
      (∃ later, s.step? containers (.arrive 2) = some later ∧
        later.phase 2 = .finished (Controller.busyReport (containers.request 2))) ∧
      ∃ later, s.step? containers (.arrive 3) = some later ∧ (later.phase 3).Works := by
  let s := ({} : State (Fin 4)).arrived containers 0
  have reachable : Reachable containers s := .step .start (.arrived rfl)
  have slashes (i j : Fin 4) : (containers.request j).SameSlashes (containers.request i) :=
    ⟨rfl, rfl⟩
  have first : (s.phase 0).Works := trivial
  have answer (i : Fin 4) (other : i ≠ 0) := superseded_by_own_target reachable
    (arriving_of_first other) fun j _ _ => slashes i j
  obtain ⟨second, due, -, letIn⟩ := answer 1 (by decide)
  obtain ⟨third, due', turnedAway, -⟩ := answer 2 (by decide)
  obtain ⟨fourth, due'', -, letIn'⟩ := answer 3 (by decide)
  refine ⟨s, reachable, fun _ => arriving_of_first, ⟨second, due, letIn ?_⟩,
    ⟨third, due', turnedAway.mpr ?_⟩, fourth, due'', letIn' ?_⟩
  · rintro ⟨j, works, -, same⟩
    obtain rfl := works_of_first works
    exact absurd same.container (by decide)
  · exact ⟨0, first, rfl, ⟨rfl, rfl, rfl⟩⟩
  · rintro ⟨j, works, here, -⟩
    obtain rfl := works_of_first works
    exact absurd here (by decide)

/-- Two services whose names take their slash from one another. -/
def shifted : Setup (Fin 2) where
  rules _ := {}
  controller _ := 0
  request i :=
    { cluster := if i.val = 0 then "cluster/main" else "cluster"
      service := if i.val = 0 then "api" else "main/api", container := "app"
      family := "api", alarm := "memory" }

/-- While the first is served the second is turned away, though nobody serves its target. -/
theorem shifted_superseded :
    ∃ s : State (Fin 2), Reachable shifted s ∧ s.phase 1 = .arriving ∧
      (∃ later, s.step? shifted (.arrive 1) = some later ∧
        later.phase 1 = .finished (Controller.busyReport (shifted.request 1))) ∧
      ¬ TargetBusy shifted s 1 := by
  let s := ({} : State (Fin 2)).arrived shifted 0
  have reachable : Reachable shifted s := .step .start (.arrived rfl)
  have held : (shifted.request 1).key ∈ (s.inFlight 0).keys := by decide
  refine ⟨s, reachable, rfl, ⟨s.arrived shifted 1, rfl, ?_⟩, ?_⟩
  · rw [State.arrived_of_held held]
    exact Function.update_self 1 _ s.phase
  · rintro ⟨j, works, -, same⟩
    obtain rfl := works_of_first works
    exact absurd same.cluster (by decide)

end Admission
end Headroom
