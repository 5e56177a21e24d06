import Headroom.Proofs.Interleaving
import Headroom.Simulation.Schedule

/-!
Requests served in simulated time are served in one of the orders of `Interleaving`,
if nobody else writes in between. A reply that will come too late is, from the moment
of its effect on, the failure that takes its place.
-/
namespace Headroom.Simulation

open Headroom.Cycle (Course Report Rules)
open Headroom.Interleaving

/-- Nobody else puts a binding in place. -/
def Disturbance.Alone (d : Disturbance) : Prop := d.bindBefore = none ∧ d.bindAfter = none

/-- A disturbed call is one that a fault befell. -/
theorem Disturbance.effect_eq_attempt {d : Disturbance} (alone : d.Alone) (s : Stores)
    (call : Call) : ∃ fault, d.effect (·.perform call) s = s.attempt call fault := by
  obtain ⟨delay, _, error, afterEffect, _, delayAfter⟩ := d
  obtain ⟨rfl, rfl⟩ := alone
  cases error with
  | none => exact ⟨.none, rfl⟩
  | some error =>
    cases afterEffect with
    | false => exact ⟨.refused error, rfl⟩
    | true =>
      cases made : s.perform call with
      | mk reply after =>
        cases reply with
        | ok answer => exact ⟨.lost error, by simp [effect, bindIfAny, Stores.attempt, made]⟩
        | error refusal => exact ⟨.none, by simp [effect, bindIfAny, Stores.attempt, made]⟩

/-- A disturbed call that is cut off after its effect is one whose answer was lost. -/
theorem Disturbance.effect_cutOff {d : Disturbance} (alone : d.Alone) (s : Stores)
    (call : Call) (error : Error) :
    ∃ fault, s.attempt call fault = (.error error, (d.effect (·.perform call) s).2) := by
  obtain ⟨delay, _, given, afterEffect, _, delayAfter⟩ := d
  obtain ⟨rfl, rfl⟩ := alone
  cases given with
  | none => exact ⟨.lost error, rfl⟩
  | some given =>
    cases afterEffect with
    | false => exact ⟨.refused error, rfl⟩
    | true =>
      refine ⟨.lost error, ?_⟩
      cases made : s.perform call with
      | mk reply after => cases reply <;> simp [effect, bindIfAny, Stores.attempt, made]

/-- How an activity looks when time is left out. -/
def Activity.phase (rules : Rules) : Activity → Phase
  | .arriving => .arriving
  | .calling course | .acting course .. | .pausing course _ => .calling course
  | .replying course reply wake deadline =>
    .answered course (if wake ≤ deadline then reply else Thread.cutOff rules course)
  | .finished report => .finished report

/-- An activity is looked at before its time, and no disturbance in it writes. -/
def Activity.Waits (now : Nat) : Activity → Prop
  | .acting _ d wake deadline => d.Alone ∧ now ≤ wake ∧ now ≤ deadline
  | .replying _ _ wake deadline => now ≤ wake ∧ now ≤ deadline
  | _ => True

/-- No disturbance to come writes. -/
def World.Alone (w : World) : Prop := ∀ operation, ∀ d ∈ w.pending operation, d.Alone

theorem World.next_inFlight (w : World) (operation : Operation) :
    (w.next operation).2.inFlight = w.inFlight := by
  unfold next
  split <;> rfl

theorem World.Alone.next {w : World} (alone : w.Alone) (operation : Operation) :
    (w.next operation).1.Alone ∧ (w.next operation).2.Alone := by
  unfold World.next
  split
  · exact ⟨⟨rfl, rfl⟩, alone⟩
  · rename_i first rest pending
    have all := alone operation
    rw [pending] at all
    refine ⟨all first List.mem_cons_self, fun other d later => ?_⟩
    dsimp only at later
    split at later
    · exact all d (List.mem_cons_of_mem _ later)
    · exact alone other d later

/-- A state is how threads and their world look when time is left out. -/
structure Mirrors (rules : Rules) (setup : Setup Nat) (threads : List Thread) (w : World)
    (s : State Nat) : Prop where
  alone : w.Alone
  rules_eq : ∀ controller, setup.rules controller = rules
  stores : s.stores = w.stores
  inFlight : s.inFlight = w.inFlight
  thread : ∀ i t, threads[i]? = some t →
    setup.controller i = t.controller ∧ setup.request i = t.request ∧
      s.phase i = t.activity.phase rules

namespace Mirrors

variable {rules : Rules} {setup : Setup Nat} {before after : List Thread} {t : Thread}
  {w : World} {s : State Nat}

theorem here (mirrors : Mirrors rules setup (before ++ t :: after) w s) :
    setup.controller before.length = t.controller ∧ setup.request before.length = t.request ∧
      s.phase before.length = t.activity.phase rules :=
  mirrors.thread before.length t (by simp)

/-- One thread and the world have changed, and so has the state. -/
theorem change (mirrors : Mirrors rules setup (before ++ t :: after) w s) {w' : World}
    {s' : State Nat} (alone : w'.Alone) (activity : Activity) (stores : s'.stores = w'.stores)
    (inFlight : s'.inFlight = w'.inFlight)
    (phase : s'.phase = Function.update s.phase before.length (activity.phase rules)) :
    Mirrors rules setup (before ++ { t with activity } :: after) w' s' where
  alone := alone
  rules_eq := mirrors.rules_eq
  stores := stores
  inFlight := inFlight
  thread i other at_i := by
    by_cases same : i = before.length
    · subst same
      simp only [List.getElem?_append_right (Nat.le_refl _), Nat.sub_self,
        List.getElem?_cons_zero, Option.some.injEq] at at_i
      subst at_i
      obtain ⟨controller, request, -⟩ := mirrors.here
      exact ⟨controller, request, by rw [phase, Function.update_self]⟩
    · have unchanged : (before ++ t :: after)[i]? = some other := by
        obtain left | right := Nat.lt_or_gt_of_ne same
        · rw [List.getElem?_append_left left] at at_i ⊢
          exact at_i
        · rw [List.getElem?_append_right (Nat.le_of_lt right)] at at_i ⊢
          obtain ⟨k, gap⟩ : ∃ k, i - before.length = k + 1 := ⟨i - before.length - 1, by omega⟩
          rw [gap, List.getElem?_cons_succ] at at_i ⊢
          exact at_i
      obtain ⟨controller, request, shown⟩ := mirrors.thread i other unchanged
      exact ⟨controller, request, by rw [phase, Function.update_of_ne same, shown]⟩

/-- The thread has only got on in time. -/
theorem wait (mirrors : Mirrors rules setup (before ++ t :: after) w s) {w' : World}
    (alone : w'.Alone) (activity : Activity) (stores : w'.stores = w.stores)
    (inFlight : w'.inFlight = w.inFlight)
    (same : activity.phase rules = t.activity.phase rules) :
    Mirrors rules setup (before ++ { t with activity } :: after) w' s := by
  refine mirrors.change alone activity (mirrors.stores.trans stores.symm)
    (mirrors.inFlight.trans inFlight.symm) ?_
  rw [same, ← mirrors.here.2.2, Function.update_eq_self]

/-- What a controller is serving is set in the world as in the state. -/
theorem hold (mirrors : Mirrors rules setup (before ++ t :: after) w s) (controller : Nat)
    (f : InFlight) : (w.setInFlight controller f).inFlight = (s.hold controller f).inFlight := by
  funext other
  simp only [World.setInFlight, State.hold, mirrors.inFlight, Function.update_apply]

end Mirrors

/-- Threads and world look like a state that can come about, and the thread at its turn
is looked at before its time. -/
def Covered (rules : Rules) (setup : Setup Nat) (stores : Stores) (now : Nat)
    (before after : List Thread) (next : Thread × World) : Prop :=
  ∃ s, Reachable setup stores s ∧ Mirrors rules setup (before ++ next.1 :: after) next.2 s ∧
    next.1.activity.Waits now

section

variable {rules : Rules} {setup : Setup Nat} {before after : List Thread} {w : World}
  {s : State Nat} {stores : Stores} {number : Nat} {wanted : Request} {course : Course}

/-- Taking a reply is a move. -/
theorem Mirrors.take {t : Thread} (mirrors : Mirrors rules setup (before ++ t :: after) w s)
    (reachable : Reachable setup stores s) (now : Nat) {reply : course.call.Reply}
    (answered : s.phase before.length = .answered course reply) :
    Covered rules setup stores now before after (t.take rules now w course reply) := by
  obtain ⟨controller, request, -⟩ := mirrors.here
  unfold Thread.take
  dsimp only
  split
  · rename_i pause next goes
    have due : s.step? setup (.take before.length) =
        some (s.enter before.length (.calling next)) := by
      simp only [State.step?, answered, mirrors.rules_eq, goes]
    refine ⟨_, reachable.step due, mirrors.change ?_ (.pausing next (now + pause)) ?_ ?_ rfl,
      trivial⟩
    · exact mirrors.alone
    · exact mirrors.stores
    · exact mirrors.inFlight
  · rename_i next goes
    have due : s.step? setup (.take before.length) =
        some (s.enter before.length (.calling next)) := by
      simp only [State.step?, answered, mirrors.rules_eq, goes]
    refine ⟨_, reachable.step due, mirrors.change ?_ (.calling next) ?_ ?_ rfl, trivial⟩
    · exact mirrors.alone
    · exact mirrors.stores
    · exact mirrors.inFlight
  · rename_i report ends
    have due : s.step? setup (.take before.length) =
        some ((s.enter before.length (.finished report)).hold t.controller
          ((w.inFlight t.controller).release t.request.key)) := by
      simp only [State.step?, answered, mirrors.rules_eq, ends, controller, request,
        mirrors.inFlight]
    refine ⟨_, reachable.step due, mirrors.change ?_ (.finished report) ?_ ?_ rfl, trivial⟩
    · exact mirrors.alone
    · exact mirrors.stores
    · exact (mirrors.hold t.controller _).symm

/-- A call that is cut off before its effect is one that was refused. -/
theorem Mirrors.cutOff {t : Thread} (mirrors : Mirrors rules setup (before ++ t :: after) w s)
    (reachable : Reachable setup stores s) (now : Nat)
    (calling : s.phase before.length = .calling course) :
    Covered rules setup stores now before after
      (t.take rules now w course (Thread.cutOff rules course)) := by
  have fails : s.step? setup
      (.call before.length (.refused (rules.retry.timeout course.call.operation.name))) =
        some (s.called before.length course (Thread.cutOff rules course) s.stores) := by
    simp only [State.step?, calling]
    rfl
  have failed : Mirrors rules setup
      (before ++ { t with activity := .replying course (Thread.cutOff rules course) now now } ::
        after) w (s.called before.length course (Thread.cutOff rules course) s.stores) :=
    mirrors.change mirrors.alone _ mirrors.stores mirrors.inFlight
      (by simp [State.called, Activity.phase])
  exact failed.take (reachable.step fails) now (by simp [State.called])

theorem Mirrors.arrive
    (mirrors : Mirrors rules setup (before ++ ⟨number, wanted, .arriving⟩ :: after) w s)
    (reachable : Reachable setup stores s) {now : Nat} {next : Thread × World}
    (done : Thread.step? rules now ⟨number, wanted, .arriving⟩ w = some next) :
    Covered rules setup stores now before after next := by
  obtain ⟨controller, request, phase⟩ := mirrors.here
  cases taken : (w.inFlight number).take? wanted.key with
  | none =>
    simp only [Thread.step?, taken, Option.some.injEq] at done
    subst done
    have due : s.step? setup (.arrive before.length) =
        some (s.enter before.length (.finished (Controller.busyReport wanted))) := by
      simp only [State.step?, phase, Activity.phase, controller, request, mirrors.inFlight, taken]
    refine ⟨_, reachable.step due, mirrors.change ?_ (.finished _) ?_ ?_ rfl, trivial⟩
    · exact mirrors.alone
    · exact mirrors.stores
    · exact mirrors.inFlight
  | some f =>
    simp only [Thread.step?, taken, Option.some.injEq] at done
    subst done
    have due : s.step? setup (.arrive before.length) =
        some ((s.enter before.length (.calling (Course.start wanted))).hold number f) := by
      simp only [State.step?, phase, Activity.phase, controller, request, mirrors.inFlight, taken]
    refine ⟨_, reachable.step due, mirrors.change ?_ (.calling _) ?_ ?_ rfl, trivial⟩
    · exact mirrors.alone
    · exact mirrors.stores
    · exact (mirrors.hold number f).symm

/-- A call that takes effect is one that is made. Whether its reply will come too late is
known by then. -/
theorem Mirrors.act {d : Disturbance} {wake deadline now : Nat}
    (mirrors : Mirrors rules setup
      (before ++ ⟨number, wanted, .acting course d wake deadline⟩ :: after) w s)
    (reachable : Reachable setup stores s) (alone : d.Alone) (early : now ≤ deadline) :
    let (reply, changed) := d.effect (fun s => s.perform course.call) w.stores
    Covered rules setup stores now before after
      (⟨number, wanted, .replying course reply (now + d.delayAfter) deadline⟩,
        { w with stores := changed }) := by
  obtain ⟨-, -, phase⟩ := mirrors.here
  obtain ⟨fault, made⟩ : ∃ fault, w.stores.attempt course.call fault =
      (if now + d.delayAfter ≤ deadline then (d.effect (·.perform course.call) w.stores).1
        else Thread.cutOff rules course,
      (d.effect (·.perform course.call) w.stores).2) := by
    split
    · obtain ⟨fault, same⟩ := Disturbance.effect_eq_attempt alone w.stores course.call
      exact ⟨fault, same.symm⟩
    · exact Disturbance.effect_cutOff alone w.stores course.call _
  have due : s.step? setup (.call before.length fault) =
      some (s.called before.length course
        (if now + d.delayAfter ≤ deadline then (d.effect (·.perform course.call) w.stores).1
          else Thread.cutOff rules course)
        (d.effect (·.perform course.call) w.stores).2) := by
    simp only [State.step?, phase, Activity.phase, mirrors.stores, made]
  refine ⟨_, reachable.step due, mirrors.change ?_ (.replying course _ _ _) ?_ ?_ rfl,
    Nat.le_add_right _ _, early⟩
  · exact mirrors.alone
  · rfl
  · exact mirrors.inFlight

/-- One thing that a thread does is some moves. -/
theorem Mirrors.step? {t : Thread} (mirrors : Mirrors rules setup (before ++ t :: after) w s)
    (reachable : Reachable setup stores s) {now : Nat} (waits : t.activity.Waits now)
    {next : Thread × World} (done : t.step? rules now w = some next) :
    Covered rules setup stores now before after next := by
  obtain ⟨-, -, phase⟩ := mirrors.here
  obtain ⟨number, wanted, activity⟩ := t
  cases activity with
  | arriving => exact mirrors.arrive reachable done
  | calling course =>
    obtain rfl := Option.some.inj done
    obtain ⟨first, rest⟩ := mirrors.alone.next course.call.operation
    refine ⟨s, reachable, mirrors.wait ?_ (.acting course _ _ _) ?_ ?_ rfl,
      first, Nat.le_add_right _ _, Nat.le_add_right _ _⟩
    · exact rest
    · exact World.next_stores w _
    · exact World.next_inFlight w _
  | acting course d wake deadline =>
    obtain ⟨alone, early, early'⟩ := waits
    simp only [Thread.step?] at done
    split at done
    · obtain rfl := Option.some.inj done
      exact mirrors.act reachable alone early'
    · split at done
      · obtain rfl := Option.some.inj done
        exact mirrors.cutOff reachable now phase
      · cases done
  | replying course reply wake deadline =>
    obtain ⟨early, early'⟩ := waits
    simp only [Thread.step?] at done
    split at done
    · obtain rfl := Option.some.inj done
      have inTime : wake ≤ deadline := by omega
      simp only [Activity.phase, inTime, if_true] at phase
      exact mirrors.take reachable now phase
    · split at done
      · obtain rfl := Option.some.inj done
        have tooLate : ¬ wake ≤ deadline := by omega
        simp only [Activity.phase, tooLate, if_false] at phase
        exact mirrors.take reachable now phase
      · cases done
  | pausing course wake =>
    simp only [Thread.step?] at done
    split at done
    · obtain rfl := Option.some.inj done
      exact ⟨s, reachable, mirrors.wait mirrors.alone (.calling course) rfl rfl rfl, trivial⟩
    · cases done
  | finished report => cases done

/-- All that a thread does at a moment is some moves. -/
theorem Mirrors.advance {t : Thread} (mirrors : Mirrors rules setup (before ++ t :: after) w s)
    (reachable : Reachable setup stores s) {now : Nat} (waits : t.activity.Waits now) :
    Covered rules setup stores now before after (t.advance rules now w) := by
  induction t, w using Thread.advance.induct rules now generalizing s with
  | case1 t w idle =>
    unfold Thread.advance
    split
    · exact ⟨s, reachable, mirrors, waits⟩
    · rename_i next done
      rw [idle] at done
      cases done
  | case2 t w next done ih =>
    obtain ⟨s', reached, mirrored, waiting⟩ := mirrors.step? reachable waits done
    unfold Thread.advance
    split
    · rename_i idle
      rw [idle] at done
      cases done
    · rename_i first same
      obtain rfl := Option.some.inj (done.symm.trans same)
      exact ih mirrored reached waiting

/-- All that the threads from one on do at a moment is some moves. -/
theorem Mirrors.advanceAll (before : List Thread) {rest : List Thread}
    (mirrors : Mirrors rules setup (before ++ rest) w s)
    (reachable : Reachable setup stores s) {now : Nat}
    (waits : ∀ t ∈ rest, t.activity.Waits now) :
    ∃ s', Reachable setup stores s' ∧
      Mirrors rules setup (before ++ (advanceAll rules now rest w).1)
        (advanceAll rules now rest w).2 s' ∧
      ∀ t ∈ (advanceAll rules now rest w).1, t.activity.Waits now := by
  induction rest generalizing before w s with
  | nil => exact ⟨s, reachable, mirrors, waits⟩
  | cons t rest ih =>
    obtain ⟨first, others⟩ := List.forall_mem_cons.mp waits
    obtain ⟨s₁, reached₁, mirrored₁, waiting⟩ := mirrors.advance reachable first
    rw [List.append_cons] at mirrored₁
    obtain ⟨s₂, reached₂, mirrored₂, ready⟩ := ih _ mirrored₁ reached₁ others
    rw [List.append_assoc] at mirrored₂
    exact ⟨s₂, reached₂, mirrored₂, List.forall_mem_cons.mpr ⟨waiting, ready⟩⟩

/-- A thread is not made to wait for longer than the next moment. -/
theorem Activity.Waits.nextMoment {threads : List Thread} {moment : Nat}
    (next : nextMoment? threads = some moment) {t : Thread} (member : t ∈ threads) {now : Nat}
    (waits : t.activity.Waits now) : t.activity.Waits moment := by
  have soonest : ∀ wake, t.wake? = some wake → moment ≤ wake := fun wake due =>
    (List.min?_eq_some_iff.mp next).2 wake (List.mem_filterMap.mpr ⟨t, member, due⟩)
  obtain ⟨controller, request, activity⟩ := t
  cases activity with
  | acting course d wake deadline => exact ⟨waits.1, Nat.le_min.mp (soonest _ rfl)⟩
  | replying course reply wake deadline => exact Nat.le_min.mp (soonest _ rfl)
  | _ => trivial

theorem Mirrors.runFrom {threads : List Thread} (mirrors : Mirrors rules setup threads w s)
    (reachable : Reachable setup stores s) {now : Nat}
    (waits : ∀ t ∈ threads, t.activity.Waits now) :
    ∃ s', Reachable setup stores s' ∧
      Mirrors rules setup (runFrom rules now threads w).threads (runFrom rules now threads w).world
        s' := by
  induction now, threads, w using runFrom.induct rules generalizing s with
  | case1 now threads w last =>
    unfold Simulation.runFrom
    rw [last]
    exact ⟨s, reachable, mirrors⟩
  | case2 now threads w moment due next fewer =>
    rename_i ih
    unfold Simulation.runFrom
    rw [due]
    dsimp only
    rw [if_pos fewer]
    obtain ⟨s', reached, mirrored, waiting⟩ := Mirrors.advanceAll [] mirrors reachable
      fun t member => (waits t member).nextMoment due member
    exact ih mirrored reached waiting
  | case3 now threads w moment due next =>
    rename_i stuck
    unfold Simulation.runFrom
    rw [due]
    dsimp only
    rw [if_neg stuck]
    exact ⟨s, reachable, mirrors⟩

end

/-- Requests that are served together by the same rules. -/
def together (rules : Rules) (requests : List (Nat × Request)) : Setup Nat where
  rules _ := rules
  controller i := (requests[i]?.getD default).1
  request i := (requests[i]?.getD default).2

/-- The world in which requests have been served in simulated time is one that their
moves, in some order, could have brought about; the threads stand where the cycles do. -/
theorem serveAll_reachable (rules : Rules) (requests : List (Nat × Request)) {w : World}
    (alone : w.Alone) (idle : w.inFlight = fun _ => {}) :
    ∃ s, Reachable (together rules requests) w.stores s ∧
      Mirrors rules (together rules requests) (serveAll rules requests w).threads
        (serveAll rules requests w).world s := by
  refine Mirrors.runFrom (s := { stores := w.stores }) ?_ .start (fun t member => ?_)
  · refine ⟨alone, fun _ => rfl, rfl, idle.symm, fun i t at_i => ?_⟩
    rw [List.getElem?_map] at at_i
    obtain ⟨pair, found, rfl⟩ := Option.map_eq_some_iff.mp at_i
    simp [together, found, Activity.phase]
  · obtain ⟨pair, -, rfl⟩ := List.mem_map.mp member
    trivial

end Headroom.Simulation
