import Headroom.Health
import Mathlib.Data.List.Induction

/-!
What comes to the notice of a service's health, as a history: the outcomes of batches and
cycles, one after the other. A notice has a verdict on some of the parts (`Notice.verdict`):
it harms a part or mends it. What harmed a part stands until the part is mended (`Stands`),
and so the last verdict on a part is all that counts (`shown_status`).
-/
namespace Headroom

/-- What comes to the notice of a service's health. -/
inductive Notice where
  | batch (outcome : LogBatch.Outcome)
  | cycle (outcome : Cycle.Outcome)
  /-- The service has been started up, or not yet. -/
  | started (yes : Bool)
  /-- Time goes on. -/
  | clock (time : Int64)
  deriving DecidableEq

namespace Notice

/-- A cycle failed. -/
def fails : Notice → Bool
  | cycle (.failed ..) => true
  | _ => false

/-- A cycle failed on an error that has used up its attempts. -/
def isOutage : Notice → Bool
  | cycle (.failed _ error _) => error.isTransient
  | _ => false

/-- A cycle ended otherwise, or was not let in. -/
def clears : Notice → Bool
  | cycle (.scaled ..) | cycle (.saturated ..) | cycle (.superseded ..) => true
  | _ => false

/-- Datapoints were taken by the metrics backend. -/
def isPublished : Notice → Bool
  | batch (.published _) => true
  | _ => false

/-- The metrics backend has failed in something. -/
def faultsMonitor : Notice → Bool
  | batch (.publishFailed ..) | cycle (.scaled _ _ _ (.stale ..)) => true
  | _ => false

/-- A cycle did all that it was to do. -/
def isFullSuccess : Notice → Bool
  | cycle (.scaled _ _ _ (.patched ..)) => true
  | _ => false

def isStart : Notice → Bool
  | started _ => true
  | _ => false

/-- What a notice shows a part to be like, if anything. -/
def verdict : Notice → Component → Option Condition
  | batch (.published _), .pipeline => some ⟨.healthy, none⟩
  | batch (.published _), .metricsBackend => some ⟨.healthy, none⟩
  | batch (.publishFailed _ error), .metricsBackend => some ⟨.degraded, some error.message⟩
  | cycle (.failed _ error _), .controller => some ⟨.degraded, some error.message⟩
  | cycle (.failed _ error _), .allocationStore =>
    if error.isTransient then
      some ⟨.unhealthy, some ("unreachable after retries: " ++ error.message)⟩
    else none
  | cycle (.scaled ..), .controller => some ⟨.healthy, none⟩
  | cycle (.scaled ..), .allocationStore => some ⟨.healthy, none⟩
  | cycle (.scaled previous new memory (.stale alarm threshold error)), .metricsBackend =>
    some ⟨.degraded,
      some (Cycle.Outcome.scaled previous new memory (.stale alarm threshold error)).summary⟩
  | cycle (.saturated ..), .controller => some ⟨.healthy, none⟩
  | cycle (.saturated ..), .allocationStore => some ⟨.healthy, none⟩
  | cycle (.superseded ..), .controller => some ⟨.healthy, none⟩
  | cycle (.superseded ..), .allocationStore => some ⟨.healthy, none⟩
  | _, _ => none

/-- The notices that make a part worse. -/
def harms : Notice → Component → Bool
  | _, .pipeline => false
  | n, .controller => n.fails
  | n, .allocationStore => n.isOutage
  | n, .metricsBackend => n.faultsMonitor

/-- The notices that make a part healthy. -/
def mends : Notice → Component → Bool
  | n, .pipeline | n, .metricsBackend => n.isPublished
  | n, .controller | n, .allocationStore => n.clears

/-- A cycle that did all that it was to do has nothing to tell of the metrics backend. -/
theorem verdict_of_fullSuccess {n : Notice} (full : n.isFullSuccess = true) :
    n.verdict .controller = some ⟨.healthy, none⟩ ∧
      n.verdict .allocationStore = some ⟨.healthy, none⟩ ∧ n.verdict .metricsBackend = none := by
  unfold isFullSuccess at full
  split at full
  · exact ⟨rfl, rfl, rfl⟩
  · cases full

theorem isPublished_of_fullSuccess {n : Notice} (full : n.isFullSuccess = true) :
    n.isPublished = false := by
  unfold isFullSuccess at full
  split at full
  · rfl
  · cases full

/-- A cycle harms the metrics backend by leaving its alarm behind. -/
theorem stale_of_faultsMonitor {outcome : Cycle.Outcome}
    (faults : (cycle outcome).faultsMonitor = true) :
    ∃ previous new memory alarm threshold error,
      outcome = .scaled previous new memory (.stale alarm threshold error) := by
  unfold faultsMonitor at faults
  split at faults
  · rename_i same
    cases same
  · rename_i same
    cases same
    exact ⟨_, _, _, _, _, _, rfl⟩
  · cases faults

/-- What the metrics backend failed in is not taken by it. -/
theorem isPublished_of_faultsMonitor {n : Notice} (faults : n.faultsMonitor = true) :
    n.isPublished = false := by
  unfold faultsMonitor at faults
  split at faults
  · rfl
  · rfl
  · cases faults

end Notice

/-- The status of a part that has been harmed. -/
def Component.harmed : Component → Status
  | .allocationStore => .unhealthy
  | _ => .degraded

theorem Component.harmed_ne_healthy (c : Component) : c.harmed ≠ .healthy := by
  cases c <;> decide

/-- A verdict leaves a part as bad as it can be, or healthy. -/
theorem Notice.verdict_status (n : Notice) (c : Component) :
    (n.verdict c).map (·.status) =
      if n.harms c then some c.harmed else if n.mends c then some .healthy else none := by
  cases n with
  | batch outcome => cases outcome <;> cases c <;> rfl
  | cycle outcome =>
    cases outcome with
    | scaled previous new memory alarm => cases alarm <;> cases c <;> rfl
    | failed state error orphan => cases error <;> cases c <;> rfl
    | _ => cases c <;> rfl
  | _ => cases c <;> rfl

/-- A notice has a verdict on the parts that it harms or mends. -/
theorem Notice.isSome_verdict (n : Notice) (c : Component) :
    (n.verdict c).isSome = (n.harms c || n.mends c) := by
  rw [← Option.isSome_map (f := (·.status)), n.verdict_status c]
  cases n.harms c <;> cases n.mends c <;> rfl

/-- The last notice of a kind. -/
def lastOf (kind : Notice → Bool) (notices : List Notice) : Option Notice :=
  (notices.filter kind).getLast?

/-- Some bad notice has not been followed by a good one. -/
def Stands (bad good : Notice → Bool) (notices : List Notice) : Prop :=
  ∃ before n after, notices = before ++ n :: after ∧ bad n ∧ ∀ later ∈ after, good later = false

theorem lastOf_append (kind : Notice → Bool) (notices : List Notice) (n : Notice) :
    lastOf kind (notices ++ [n]) = if kind n then some n else lastOf kind notices := by
  unfold lastOf
  cases is : kind n <;> simp [List.filter_append, is]

theorem kind_of_lastOf {kind : Notice → Bool} {notices : List Notice} {n : Notice}
    (last : lastOf kind notices = some n) : kind n = true :=
  (List.mem_filter.mp (List.mem_of_getLast? last)).2

section

variable {bad good : Notice → Bool}

theorem not_stands_nil : ¬ Stands bad good [] := by
  rintro ⟨before, n, after, whole, -⟩
  simp at whole

/-- What stands is not over until it is mended. -/
theorem Stands.append {notices later : List Notice} (stands : Stands bad good notices)
    (quiet : ∀ n ∈ later, good n = false) : Stands bad good (notices ++ later) := by
  obtain ⟨before, n, after, rfl, is, still⟩ := stands
  refine ⟨before, n, after ++ later, by simp, is, ?_⟩
  intro m member
  exact (List.mem_append.mp member).elim (still m) (quiet m)

theorem stands_append (notices : List Notice) (n : Notice) :
    Stands bad good (notices ++ [n]) ↔
      bad n = true ∨ good n = false ∧ Stands bad good notices := by
  constructor
  · rintro ⟨before, first, after, whole, is, quiet⟩
    rcases List.eq_nil_or_concat after with rfl | ⟨rest, last, rfl⟩
    · obtain ⟨-, same⟩ := List.append_inj' whole rfl
      cases same
      exact .inl is
    · rw [List.concat_eq_append] at whole quiet
      have split : notices ++ [n] = (before ++ first :: rest) ++ [last] := by simpa using whole
      obtain ⟨rfl, same⟩ := List.append_inj' split rfl
      cases same
      exact .inr ⟨quiet n (by simp), before, first, rest, rfl, is,
        fun later member => quiet later (by simp [member])⟩
  · rintro (is | ⟨quiet, before, first, after, rfl, is, later⟩)
    · exact ⟨notices, n, [], rfl, is, by simp⟩
    · exact Stands.append ⟨before, first, after, rfl, is, later⟩ (by simpa using quiet)

/-- What stands shows in the last notice that is bad or good. -/
theorem stands_iff_lastOf (notices : List Notice) :
    Stands bad good notices ↔
      ∃ n, lastOf (fun n => bad n || good n) notices = some n ∧ bad n = true := by
  induction notices using List.reverseRecOn with
  | nil => simp [not_stands_nil, lastOf]
  | append_singleton notices n ih =>
    rw [stands_append, lastOf_append, ih]
    cases is : bad n <;> cases is' : good n <;> simp [is]

end

/-- What a part is like by the last verdict on it. -/
def shown (notices : List Notice) (c : Component) : Condition :=
  (notices.filterMap (·.verdict c)).getLast?.getD ⟨.healthy, none⟩

theorem shown_append (notices : List Notice) (n : Notice) (c : Component) :
    shown (notices ++ [n]) c = (n.verdict c).getD (shown notices c) := by
  unfold shown
  rw [List.filterMap_append]
  cases verdict : n.verdict c <;> simp [verdict]

/-- A part that was harmed is as bad as it can be until it is mended, and any other is
healthy. -/
theorem shown_status (notices : List Notice) (c : Component) :
    (Stands (·.harms c) (·.mends c) notices ∧ (shown notices c).status = c.harmed) ∨
      (¬ Stands (·.harms c) (·.mends c) notices ∧ (shown notices c).status = .healthy) := by
  induction notices using List.reverseRecOn with
  | nil => exact .inr ⟨not_stands_nil, rfl⟩
  | append_singleton notices n ih =>
    have verdict := n.verdict_status c
    rw [stands_append, shown_append]
    cases harms : n.harms c with
    | true =>
      rw [harms, if_pos rfl] at verdict
      obtain ⟨condition, given, status⟩ := Option.map_eq_some_iff.mp verdict
      rw [given]
      exact .inl ⟨.inl rfl, status⟩
    | false =>
      rw [harms, if_neg Bool.false_ne_true] at verdict
      cases mends : n.mends c with
      | true =>
        rw [mends, if_pos rfl] at verdict
        obtain ⟨condition, given, status⟩ := Option.map_eq_some_iff.mp verdict
        rw [given]
        exact .inr ⟨by simp, status⟩
      | false =>
        rw [mends, if_neg Bool.false_ne_true, Option.map_eq_none_iff] at verdict
        rw [verdict]
        simpa using ih

/-- A part is as bad as it can be while what harmed it stands. -/
theorem shown_eq_harmed_iff (notices : List Notice) (c : Component) :
    (shown notices c).status = c.harmed ↔ Stands (·.harms c) (·.mends c) notices := by
  obtain ⟨stands, status⟩ | ⟨stands, status⟩ := shown_status notices c
  · exact iff_of_true status stands
  · exact iff_of_false (fun harmed => c.harmed_ne_healthy (harmed.symm.trans status)) stands

theorem shown_eq_healthy_iff (notices : List Notice) (c : Component) :
    (shown notices c).status = .healthy ↔ ¬ Stands (·.harms c) (·.mends c) notices := by
  obtain ⟨stands, status⟩ | ⟨stands, status⟩ := shown_status notices c
  · refine iff_of_false (fun healthy => ?_) (not_not_intro stands)
    exact c.harmed_ne_healthy (status.symm.trans healthy)
  · exact iff_of_true status stands

theorem shown_cases (notices : List Notice) (c : Component) :
    (shown notices c).status = .healthy ∨ (shown notices c).status = c.harmed := by
  obtain ⟨-, status⟩ | ⟨-, status⟩ := shown_status notices c
  · exact .inr status
  · exact .inl status

/-- Nothing harms the pipeline. -/
theorem shown_pipeline (notices : List Notice) : (shown notices .pipeline).status = .healthy := by
  rw [shown_eq_healthy_iff]
  rintro ⟨_, _, _, _, harms, _⟩
  cases harms

end Headroom
