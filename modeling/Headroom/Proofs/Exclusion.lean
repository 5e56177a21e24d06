import Headroom.Proofs.Admission

/-!
A controller serves requests of one key one at a time, over stores as without; and what
a cycle that ends has come to.
-/
namespace Headroom.Interleaving

open Headroom.Cycle

variable {ι : Type} [DecidableEq ι]

theorem State.works_of_other {s : State ι} {i j : ι} {phase : Phase} (other : j ≠ i)
    (works : ((s.enter i phase).phase j).Works) : (s.phase j).Works := by
  simpa [enter, other] using works

theorem State.works_of_finished {s : State ι} {i j : ι} {report : Report}
    (works : ((s.enter i (.finished report)).phase j).Works) : j ≠ i ∧ (s.phase j).Works := by
  by_cases same : j = i
  · subst same
    simp [enter, Phase.Works] at works
  · exact ⟨same, works_of_other same works⟩

/-- No two cycles with one key are under way at a controller. -/
theorem Reachable.exclusive {setup : Setup ι} {stores : Stores} {s : State ι}
    (reachable : Reachable setup stores s) {i j : ι} (works : (s.phase i).Works)
    (works' : (s.phase j).Works) (controller : setup.controller i = setup.controller j)
    (key : (setup.request i).key = (setup.request j).key) : i = j :=
  (Admission.Reachable.of_interleaving reachable).keysHeld.alone _ _ i j
    ⟨works, controller, key⟩ ⟨works', rfl, rfl⟩

/-- A cycle that has just ended was turned away, or it has taken its last reply. -/
theorem Step.ends {setup : Setup ι} {s s' : State ι} (step : Step setup s s') {i : ι}
    {report : Report} (before : ∀ report, s.phase i ≠ .finished report)
    (after : s'.phase i = .finished report) :
    report = Controller.busyReport (setup.request i) ∨
      (s.phase i).Works ∧ s.standing? setup i = some (.ended report) ∧ s'.stores = s.stores := by
  have elsewhere : ∀ {j : ι} {phase : Phase}, i ≠ j →
      Function.update s.phase j phase i ≠ .finished report := by
    intro j phase other
    rw [Function.update_of_ne other]
    exact before report
  cases step with
  | @turnedAway j arriving held =>
    by_cases same : i = j
    · subst same
      left
      simpa [State.enter] using after.symm
    · exact absurd after (elsewhere same)
  | @admitted j arriving free =>
    by_cases same : i = j
    · subst same
      simp [State.enter, State.hold] at after
    · exact absurd after (elsewhere same)
  | @called j course reply stores calling fault attempted =>
    by_cases same : i = j
    · subst same
      simp [State.called] at after
    · exact absurd after (elsewhere same)
  | @resumed j course next reply answered goes =>
    by_cases same : i = j
    · subst same
      simp [State.enter] at after
    · exact absurd after (elsewhere same)
  | @ended j course reply last answered ends =>
    by_cases same : i = j
    · subst same
      have told : last = report := by simpa [State.enter, State.hold] using after
      subst told
      exact .inr ⟨by rw [answered]; trivial, by simp [State.standing?, answered, ends], rfl⟩
    · exact absurd after (elsewhere same)

end Headroom.Interleaving
