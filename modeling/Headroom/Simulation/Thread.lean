import Headroom.Simulation.World

/-!
One request being served in simulated time. A thread does all it can at one moment
and then waits: for a call to take effect, for its reply, or for the end of a
pause. A call is cut off when its time budget is used up and it is still waiting;
what it did before that stays done.
-/
namespace Headroom.Simulation

open Headroom.Cycle (Course Report Rules)

/-- Where a thread stands. -/
inductive Activity where
  | arriving
  /-- About to make the call that is due. -/
  | calling (course : Course)
  /-- The call takes effect at `wake`, unless it is cut off at `deadline` before. -/
  | acting (course : Course) (d : Disturbance) (wake deadline : Nat)
  /-- The reply arrives at `wake`, unless the call is cut off at `deadline` before. -/
  | replying (course : Course) (reply : course.call.Reply) (wake deadline : Nat)
  /-- The next attempt begins at `wake`. -/
  | pausing (course : Course) (wake : Nat)
  | finished (report : Report)

structure Thread where
  controller : Nat
  request : Request
  activity : Activity := .arriving

namespace Thread

/-- End with a report, telling of it. -/
def finish (t : Thread) (w : World) (report : Report) : Thread × World :=
  ({ t with activity := .finished report }, w.tell [.cycleEnded t.request.family report.outcome])

/-- Give back the key of the request. -/
def release (t : Thread) (w : World) : World :=
  w.setInFlight t.controller ((w.inFlight t.controller).release t.request.key)

/-- Take the reply to the call that is due. -/
def take (rules : Rules) (now : Nat) (t : Thread) (w : World) (course : Course)
    (reply : course.call.Reply) : Thread × World :=
  let turn := course.answer rules reply
  let w := w.tell turn.events
  match turn.next with
  | .again pause next => ({ t with activity := .pausing next (now + pause) }, w)
  | .proceed next => ({ t with activity := .calling next }, w)
  | .finish report => t.finish (t.release w) report

/-- The reply to a call that was cut off. -/
def cutOff (rules : Rules) (course : Course) : course.call.Reply :=
  .error (rules.retry.timeout course.call.operation.name)

/-- One thing that a thread does at a moment; `none` when it waits or has finished. -/
def step? (rules : Rules) (now : Nat) (t : Thread) (w : World) : Option (Thread × World) :=
  match t.activity with
  | .arriving =>
    match (w.inFlight t.controller).take? t.request.key with
    | none => some (t.finish w (Controller.busyReport t.request))
    | some f =>
      some ({ t with activity := .calling (Course.start t.request) },
        (w.setInFlight t.controller f).tell (Course.startEvents t.request))
  | .calling course =>
    let (d, w) := w.next course.call.operation
    let acting : Activity := .acting course d (now + d.delay) (now + rules.retry.callTimeout)
    some ({ t with activity := acting }, w.note now (.call course.call))
  | .acting course d wake deadline =>
    if wake ≤ now then
      let (reply, stores) := d.effect (fun s => s.perform course.call) w.stores
      let replying : Activity := .replying course reply (now + d.delayAfter) deadline
      some ({ t with activity := replying }, { w with stores })
    else if deadline ≤ now then some (t.take rules now w course (cutOff rules course))
    else none
  | .replying course reply wake deadline =>
    if wake ≤ now then some (t.take rules now w course reply)
    else if deadline ≤ now then some (t.take rules now w course (cutOff rules course))
    else none
  | .pausing course wake =>
    if wake ≤ now then some ({ t with activity := .calling course }, w) else none
  | .finished _ => none

/-- When a waiting thread can go on. -/
def wake? (t : Thread) : Option Nat :=
  match t.activity with
  | .arriving | .calling _ => some 0
  | .acting _ _ wake deadline | .replying _ _ wake deadline => some (min wake deadline)
  | .pausing _ wake => some wake
  | .finished _ => none

/-- A bound on the things still to do. -/
def remaining (rules : Rules) (t : Thread) : Nat :=
  match t.activity with
  | .arriving => 4 * (Course.start t.request).remaining rules + 5
  | .pausing course _ => 4 * course.remaining rules + 4
  | .calling course => 4 * course.remaining rules + 3
  | .acting course _ _ _ => 4 * course.remaining rules + 2
  | .replying course _ _ _ => 4 * course.remaining rules + 1
  | .finished _ => 0

theorem remaining_take_lt (rules : Rules) (now : Nat) (t : Thread) (w : World) (course : Course)
    (reply : course.call.Reply) :
    (t.take rules now w course reply).1.remaining rules < 4 * course.remaining rules + 1 := by
  simp only [take]
  split
  · rename_i pause next h
    have := Course.remaining_again rules course reply pause next h
    simp only [remaining]
    omega
  · rename_i next h
    have := Course.remaining_proceed rules course reply next h
    simp only [remaining]
    omega
  · simp [finish, remaining]

theorem remaining_step_lt (rules : Rules) (now : Nat) (t : Thread) (w : World)
    (next : Thread × World) (h : t.step? rules now w = some next) :
    next.1.remaining rules < t.remaining rules := by
  unfold step? at h
  split at h
  · rename_i arriving
    split at h <;> simp only [Option.some.injEq] at h <;> subst h
    · simp [finish, remaining, arriving]
    · simp [remaining, arriving]
  · rename_i course calling
    simp only [Option.some.injEq] at h
    subst h
    simp [remaining, calling]
  · rename_i course d wake deadline acting
    split at h
    · simp only [Option.some.injEq] at h
      subst h
      simp [remaining, acting]
    · split at h
      · simp only [Option.some.injEq] at h
        subst h
        have := remaining_take_lt rules now t w course (cutOff rules course)
        simp only [remaining, acting] at this ⊢
        omega
      · simp at h
  · rename_i course reply wake deadline replying
    split at h
    · simp only [Option.some.injEq] at h
      subst h
      have := remaining_take_lt rules now t w course reply
      simp only [remaining, replying] at this ⊢
      omega
    · split at h
      · simp only [Option.some.injEq] at h
        subst h
        have := remaining_take_lt rules now t w course (cutOff rules course)
        simp only [remaining, replying] at this ⊢
        omega
      · simp at h
  · rename_i course wake pausing
    split at h
    · simp only [Option.some.injEq] at h
      subst h
      simp [remaining, pausing]
    · simp at h
  · simp at h

/-- Do all that can be done at a moment. -/
def advance (rules : Rules) (now : Nat) (t : Thread) (w : World) : Thread × World :=
  match _done : t.step? rules now w with
  | none => (t, w)
  | some next => next.1.advance rules now next.2
termination_by t.remaining rules
decreasing_by exact remaining_step_lt rules now t w _ _done

end Thread
end Headroom.Simulation
