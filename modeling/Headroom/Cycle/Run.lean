import Headroom.Cycle.Course

/-!
Running a cycle to its end. Every reply leaves fewer calls to come, so a run ends
whatever the collaborators answer.
-/
namespace Headroom.Cycle

namespace Stage

/-- Where planning goes on, the binding is confirmed next. -/
theorem rank_of_plan (rules : Rules) (container : String) (expected : Revision)
    (current : Allocation) (next : Stage)
    (h : (Move.plan rules container expected current).next = .inl next) : next.rank = 5 := by
  unfold Move.plan at h
  split at h
  · simp only [Sum.inl.injEq] at h
    rw [← h, rank]
  · simp at h
  · simp at h

/-- What follows a stage has a lower rank. -/
theorem rank_settle_lt (rules : Rules) (r : Request) (stage : Stage)
    (reply : (stage.call r).Reply) (next : Stage)
    (h : (stage.settle rules r reply).next = .inl next) : next.rank < stage.rank := by
  cases stage with
  | readAllocation expected =>
    cases reply with
    | ok current =>
      rw [rank_of_plan rules r.container expected current next h]
      simp [rank]
    | error error => simp [settle, Move.fail] at h
  | _ =>
    unfold settle at h
    split at h <;> try split at h
    all_goals simp_all [Move.fail, Move.bound]
    all_goals subst h; simp [rank]

end Stage

namespace Course

theorem attempts_pos (s : Retry.Settings) : 0 < s.attempts := by
  unfold Retry.Settings.attempts
  omega

theorem remaining_again (rules : Rules) (c : Course) (reply : c.call.Reply) (pause : Nat)
    (next : Course) (h : (c.answer rules reply).next = .again pause next) :
    next.remaining rules < c.remaining rules := by
  unfold answer at h
  split at h
  · rename_i again
    simp only [Next.again.injEq] at h
    obtain ⟨-, rfl⟩ := h
    have due : c.attempt < rules.retry.attempts := by
      unfold triesAgain at again
      split at again
      · simp [Retry.Settings.triesAgain] at again
        exact again.2
      · simp at again
    simp only [remaining]
    omega
  · simp only [move] at h
    split at h <;> simp at h

theorem remaining_proceed (rules : Rules) (c : Course) (reply : c.call.Reply) (next : Course)
    (h : (c.answer rules reply).next = .proceed next) :
    next.remaining rules < c.remaining rules := by
  unfold answer at h
  split at h
  · simp at h
  · simp only [move] at h
    split at h
    · rename_i stage settled
      simp only [Next.proceed.injEq] at h
      subst h
      have lower := Stage.rank_settle_lt rules c.request c.stage reply stage settled
      have pos := attempts_pos rules.retry
      simp only [remaining]
      have step : (stage.rank + 1) * rules.retry.attempts ≤ c.stage.rank * rules.retry.attempts :=
        Nat.mul_le_mul_right _ lower
      rw [Nat.add_mul] at step
      omega
    · simp at h

/-- A finished run: the report, the events in order, and the state of the
collaborators. -/
structure Finished (σ : Type) where
  report : Report
  events : List Event
  world : σ

/-- Run to the end, making one call after the other. -/
def run {σ : Type} (rules : Rules) (perform : σ → (call : Call) → call.Reply × σ) (world : σ)
    (c : Course) : Finished σ :=
  let (reply, world) := perform world c.call
  let turn := c.answer rules reply
  match _taken : turn.next with
  | .finish report => ⟨report, turn.events, world⟩
  | .again _ next =>
    let later := next.run rules perform world
    { later with events := turn.events ++ later.events }
  | .proceed next =>
    let later := next.run rules perform world
    { later with events := turn.events ++ later.events }
termination_by c.remaining rules
decreasing_by
  · exact remaining_again rules c _ _ next _taken
  · exact remaining_proceed rules c _ next _taken

end Course
end Headroom.Cycle
