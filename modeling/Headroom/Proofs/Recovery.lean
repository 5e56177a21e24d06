import Headroom.Proofs.Admission
import Headroom.Proofs.Conditions

/-!
What brings the allocation store back to health. A service handles any number of
notifications, several at once, on one controller. Nothing is known of the collaborators: a
call is replied to by any answer or error. A report is taken into health at some time after it
was given, and outcomes of batches come in between. The store is put back to health by two
kinds of report (`store_restored_by_report`): that of a cycle to which the store or the
orchestrator has answered, and that of a request which was turned away, for which nothing has
been called. `recovery_unheard` is a run of the second kind in which nobody has ever answered.
-/
namespace Headroom

namespace Cycle

/-- The allocation store or the orchestrator was called and has answered. -/
def Exchange.isAnswered (x : Exchange) : Bool :=
  x.call.operation != .patchAlarm && x.reply.isOk

theorem Exchange.isAnswered_of_binding? {x : Exchange} {b : Binding}
    (shown : x.binding? = some b) : x.isAnswered = true := by
  unfold binding? at shown
  split at shown
  · rfl
  · cases shown

/-- A cycle that was shown a binding has been answered. -/
theorem answered_of_expected? {transcript : List Exchange} {expected : Revision}
    (shown : expected? transcript = some expected) : ∃ x ∈ transcript, x.isAnswered = true := by
  obtain ⟨b, found, -⟩ := Option.map_eq_some_iff.mp shown
  obtain ⟨x, told, binding⟩ := List.exists_of_findSome?_eq_some found
  exact ⟨x, told, x.isAnswered_of_binding? binding⟩

/-- Where a cycle ends otherwise than in failure, it has been shown a binding. -/
theorem Advance.shown_of_clears {rules : Rules} {r : Request} {stage : Stage}
    {reply : (stage.call r).Reply} {outcome : Outcome} {transcript : List Exchange}
    (advance : Advance rules r stage reply (.inr outcome)) (recalls : stage.Recalls transcript)
    (clears : (Notice.cycle outcome).clears = true) :
    ∃ expected, expected? transcript = some expected := by
  cases advance with
  | bindingUnread error => cases clears
  | _ => exact ⟨_, recalls.1⟩

theorem Follows.answered_of_clears {rules : Rules} {r : Request} {transcript : List Exchange}
    {standing : Standing} (follows : Follows rules r transcript standing) :
    standing.Meets (fun _ => True) fun outcome =>
      (Notice.cycle outcome).clears = true → ∃ x ∈ transcript, x.isAnswered = true := by
  cases follows with
  | start => trivial
  | @answer transcript c reply before =>
    have recalls : c.stage.Recalls transcript := before.recalls
    refine c.answer_cases rules reply ?_ ?_ ?_
    · intro detail _ _
      trivial
    · intro stage path _ _
      trivial
    · intro outcome path advance _ clears
      obtain ⟨expected, shown⟩ := advance.shown_of_clears recalls clears
      have grown := List.prefix_append transcript [⟨c.call, reply⟩]
      exact answered_of_expected? ( expected?_of_prefix grown shown)

end Cycle

/-- Taking a reply, a cycle goes on or ends and gives its key back. -/
theorem Admission.State.taken_cases {ι : Type} [DecidableEq ι]
    (setup : Interleaving.Setup ι) (s : Admission.State ι) (i : ι) (course : Cycle.Course)
    (reply : course.call.Reply) :
    (∃ next, (course.answer (setup.rules (setup.controller i)) reply).next.standing = .due next ∧
        s.taken setup i course reply = s.enter i (.calling next)) ∨
      ∃ report,
        (course.answer (setup.rules (setup.controller i)) reply).next.standing = .ended report ∧
        s.taken setup i course reply = (s.enter i (.finished report)).hold (setup.controller i)
          ((s.inFlight (setup.controller i)).release (setup.request i).key) := by
  unfold Admission.State.taken
  cases (course.answer (setup.rules (setup.controller i)) reply).next with
  | again pause next => exact .inl ⟨next, rfl, rfl⟩
  | proceed next => exact .inl ⟨next, rfl, rfl⟩
  | finish report => exact .inr ⟨report, rfl, rfl⟩

namespace Recovery

open Headroom.Cycle
open Headroom.Interleaving (Phase Setup)

/-- A service with the notifications that it is sent. -/
structure Desk (ι : Type) where
  rules : Rules
  target : Target
  text : ι → String

namespace Desk

variable {ι : Type}

def intake (d : Desk ι) (i : ι) : Except Report Request := Controller.intake d.target (d.text i)

/-- The requests that the notifications make, all of one controller. A text that asks for
nothing does not get to it. -/
def setup (d : Desk ι) : Setup ι where
  rules _ := d.rules
  controller _ := 0
  request i :=
    match d.intake i with
    | .ok r => r
    | .error _ => default

end Desk

structure State (ι : Type) where
  serving : Admission.State ι := {}
  health : Health := Health.initial
  /-- Whose reports have been taken into health. -/
  recorded : ι → Bool := fun _ => false

inductive Move (ι : Type) where
  /-- A notification is looked at for the first time. -/
  | arrive (i : ι)
  /-- The call that is due is made; this is what calls are replied to with. -/
  | call (i : ι) (respond : (call : Call) → call.Reply)
  /-- The reply arrives. -/
  | take (i : ι)
  /-- A report that has been given is taken into health. It bears on the store once at most,
  so that nothing can come in between. -/
  | record (i : ι)
  /-- The outcome of a batch is taken into health. -/
  | batch (outcome : LogBatch.Outcome)

namespace State

variable {ι : Type} [DecidableEq ι]

/-- The state after a notification was looked at. -/
def arrived (d : Desk ι) (s : State ι) (i : ι) : State ι :=
  match d.intake i with
  | .ok _ => { s with serving := s.serving.arrived d.setup i }
  | .error report => { s with serving := s.serving.enter i (.finished report) }

/-- The state after a report was taken into health. -/
def noted (s : State ι) (i : ι) (report : Report) : State ι :=
  { s with
    health := s.health.recordCycle report.outcome
    recorded := Function.update s.recorded i true }

/-- Make a move, if it is due. -/
def step? (d : Desk ι) (s : State ι) : Move ι → Option (State ι)
  | .arrive i =>
    match s.serving.phase i with
    | .arriving => some (s.arrived d i)
    | _ => none
  | .call i respond =>
    match s.serving.phase i with
    | .calling course =>
      some { s with serving := s.serving.called i course (respond course.call) }
    | _ => none
  | .take i =>
    match s.serving.phase i with
    | .answered course reply => some { s with serving := s.serving.taken d.setup i course reply }
    | _ => none
  | .record i =>
    match s.serving.phase i, s.recorded i with
    | .finished report, false => some (s.noted i report)
    | _, _ => none
  | .batch outcome => some { s with health := s.health.recordBatch outcome }

/-- Make moves one after the other, if each is due. -/
def run? (d : Desk ι) (s : State ι) : List (Move ι) → Option (State ι)
  | [] => some s
  | move :: rest => (s.step? d move).bind fun next => next.run? d rest

end State

variable {ι : Type} [DecidableEq ι] {d : Desk ι} {s s' : State ι}

/-- A state that can come about when the service is healthy and nothing has arrived yet. -/
inductive Reachable (d : Desk ι) : State ι → Prop where
  | start : Reachable d {}
  | step {s s' : State ι} {move : Move ι} (before : Reachable d s)
      (due : s.step? d move = some s') : Reachable d s'

theorem Reachable.run (before : Reachable d s) {moves : List (Move ι)}
    (due : s.run? d moves = some s') : Reachable d s' := by
  induction moves generalizing s with
  | nil =>
    rw [← Option.some.inj due]
    exact before
  | cons move rest ih =>
    obtain ⟨next, first, later⟩ := Option.bind_eq_some_iff.mp due
    exact ih (before.step first) later

omit [DecidableEq ι] in
/-- A text that makes no request is refused or ignored. -/
theorem clears_of_intake {i : ι} {report : Report} (answered : d.intake i = .error report) :
    (Notice.cycle report.outcome).clears = false := by
  unfold Desk.intake Controller.intake at answered
  split at answered
  · cases answered
    rfl
  · split at answered
    · split at answered
      · cases answered
      · cases answered
        rfl
    · cases answered
      rfl

/-- While a notification was arriving, a cycle for the same container was under way. -/
def Contended (d : Desk ι) (s : State ι) (i : ι) : Prop :=
  ∃ earlier moves j, Reachable d earlier ∧ earlier.run? d moves = some s ∧
    earlier.serving.phase i = .arriving ∧ (earlier.serving.phase j).Works ∧
    (d.setup.request j).key = (d.setup.request i).key

theorem State.run?_concat {start : State ι} {moves : List (Move ι)} {move : Move ι}
    (reached : start.run? d moves = some s) (due : s.step? d move = some s') :
    start.run? d (moves ++ [move]) = some s' := by
  induction moves generalizing start with
  | nil =>
    obtain rfl := Option.some.inj reached
    simp [run?, due]
  | cons first rest ih =>
    obtain ⟨next, begun, later⟩ := Option.bind_eq_some_iff.mp reached
    exact Option.bind_eq_some_iff.mpr ⟨next, begun, ih later⟩

theorem Contended.step {i : ι} {move : Move ι} (contended : Contended d s i)
    (due : s.step? d move = some s') : Contended d s' i := by
  obtain ⟨earlier, moves, j, reachable, reached, rest⟩ := contended
  exact ⟨earlier, moves ++ [move], j, reachable, State.run?_concat reached due, rest⟩

/-- A request was turned away, and nothing has been called for it. -/
def TurnedAway (d : Desk ι) (s : State ι) (i : ι) (report : Report) : Prop :=
  report = Controller.busyReport (d.setup.request i) ∧ s.serving.transcript i = [] ∧
    Contended d s i

/-- What is known of a notification by the phase it is in and the calls made for it. -/
inductive Tracked (d : Desk ι) (s : State ι) (i : ι) : Prop where
  | arriving (phase : s.serving.phase i = .arriving) (silent : s.serving.transcript i = [])
  | calling {course : Course} (phase : s.serving.phase i = .calling course)
      (follows : Follows d.rules (d.setup.request i) (s.serving.transcript i) (.due course))
  | answered {course : Course} {reply : course.call.Reply}
      (phase : s.serving.phase i = .answered course reply)
      (follows : Follows d.rules (d.setup.request i) (s.serving.transcript i)
        (course.answer d.rules reply).next.standing)
  | ended {report : Report} (phase : s.serving.phase i = .finished report)
      (follows : Follows d.rules (d.setup.request i) (s.serving.transcript i) (.ended report))
  | refused {report : Report} (phase : s.serving.phase i = .finished report)
      (unasked : d.intake i = .error report)
  | turnedAway {report : Report} (phase : s.serving.phase i = .finished report)
      (away : TurnedAway d s i report)

/-- A move that is not about a notification leaves what is known of it. -/
theorem Tracked.kept {i : ι} {move : Move ι} (tracked : Tracked d s i)
    (due : s.step? d move = some s') (phase : s'.serving.phase i = s.serving.phase i)
    (transcript : s'.serving.transcript i = s.serving.transcript i) : Tracked d s' i := by
  cases tracked with
  | arriving here silent => exact .arriving (phase.trans here) (transcript.trans silent)
  | calling here follows => exact .calling (phase.trans here) (transcript ▸ follows)
  | answered here follows => exact .answered (phase.trans here) (transcript ▸ follows)
  | ended here follows => exact .ended (phase.trans here) (transcript ▸ follows)
  | refused here unasked => exact .refused (phase.trans here) unasked
  | turnedAway here away =>
    obtain ⟨busy, silent, contended⟩ := away
    exact .turnedAway (phase.trans here) ⟨busy, transcript.trans silent, contended.step due⟩

/-- What every step keeps. -/
structure Sound (d : Desk ι) (s : State ι) : Prop where
  held : Admission.KeysHeld d.setup s.serving
  tracked : ∀ i, Tracked d s i
  /-- Health is made of notices. -/
  noticed : ∃ notices, s.health = Health.initial.noteAll notices

namespace Sound

variable {i : ι} {move : Move ι}

theorem start : Sound d ({} : State ι) where
  held := .start
  tracked _ := .arriving rfl rfl
  noticed := ⟨[], rfl⟩

/-- A move for one notification leaves what is known of the others. -/
theorem touched (sound : Sound d s) (due : s.step? d move = some s')
    (held : Admission.KeysHeld d.setup s'.serving)
    (phase : ∀ j, j ≠ i → s'.serving.phase j = s.serving.phase j)
    (transcript : ∀ j, j ≠ i → s'.serving.transcript j = s.serving.transcript j)
    (tracked : Tracked d s' i) (health : s'.health = s.health) : Sound d s' where
  held := held
  tracked j := by
    by_cases same : j = i
    · subst same
      exact tracked
    · exact (sound.tracked j).kept due (phase j same) (transcript j same)
  noticed := health ▸ sound.noticed

/-- A notification enters another phase without a call. -/
theorem entered (sound : Sound d s) {serving : Admission.State ι} {phase : Phase}
    (due : s.step? d move = some { s with serving })
    (held : Admission.KeysHeld d.setup serving)
    (moved : serving.phase = Function.update s.serving.phase i phase)
    (silent : serving.transcript = s.serving.transcript)
    (tracked : Tracked d { s with serving } i) : Sound d { s with serving } := by
  refine sound.touched (i := i) due held ?_ ?_ tracked rfl
  · intro j other
    rw [moved, Function.update_of_ne other]
  · exact fun j _ => congrFun silent j

theorem arrived (sound : Sound d s) (reachable : Reachable d s)
    (arriving : s.serving.phase i = .arriving) : Sound d (s.arrived d i) := by
  have silent := sound.held.silent i arriving
  have due : s.step? d (.arrive i) = some (s.arrived d i) := by
    simp only [State.step?, arriving]
  unfold State.arrived at due ⊢
  cases asked : d.intake i with
  | error report =>
    rw [asked] at due
    have held : Admission.KeysHeld d.setup (s.serving.enter i (.finished report)) :=
      sound.held.enter (by simp [arriving, Phase.Works]) (by simp)
    exact sound.entered due held rfl rfl (.refused (Function.update_self ..) asked)
  | ok r =>
    rw [asked] at due
    dsimp only at due ⊢
    have held := sound.held.step (.arrived arriving)
    by_cases taken : (d.setup.request i).key ∈ (s.serving.inFlight (d.setup.controller i)).keys
    · -- Whoever holds the key is being served.
      obtain ⟨j, works, -, key⟩ := (sound.held.keys _ _).mp taken
      rw [Admission.State.arrived_of_held taken] at held due ⊢
      have moved : s.run? d ([] ++ [.arrive i]) = _ := State.run?_concat rfl due
      have contended : Contended d { s with serving := s.serving.enter i _ } i :=
        ⟨s, _, j, reachable, moved, arriving, works, key⟩
      exact sound.entered due held rfl rfl
        (.turnedAway (Function.update_self ..) ⟨rfl, silent, contended⟩)
    · rw [Admission.State.arrived_of_free taken] at held due ⊢
      refine sound.entered due held rfl rfl (.calling (Function.update_self ..) ?_)
      exact silent ▸ .start

theorem called (sound : Sound d s) {course : Course}
    (calling : s.serving.phase i = .calling course) (respond : (call : Call) → call.Reply) :
    Sound d { s with serving := s.serving.called i course (respond course.call) } := by
  have due : s.step? d (.call i respond) =
      some { s with serving := s.serving.called i course (respond course.call) } := by
    simp only [State.step?, calling]
  refine sound.touched (i := i) due (sound.held.called calling _) ?_ ?_ ?_ rfl
  · intro j other
    exact Function.update_of_ne other _ _
  · intro j other
    exact Function.update_of_ne other _ _
  · refine .answered (Function.update_self ..) ?_
    cases sound.tracked i with
    | calling phase follows =>
      cases phase.symm.trans calling
      simpa [Admission.State.called] using Follows.answer (respond course.call) follows
    | arriving phase | answered phase | ended phase | refused phase | turnedAway phase =>
      cases phase.symm.trans calling

theorem taken (sound : Sound d s) {course : Course} {reply : course.call.Reply}
    (answered : s.serving.phase i = .answered course reply) :
    Sound d { s with serving := s.serving.taken d.setup i course reply } := by
  have due : s.step? d (.take i) =
      some { s with serving := s.serving.taken d.setup i course reply } := by
    simp only [State.step?, answered]
  have held := sound.held.step (.taken answered)
  have follows : Follows d.rules (d.setup.request i) (s.serving.transcript i)
      (course.answer d.rules reply).next.standing := by
    cases sound.tracked i with
    | answered phase follows =>
      cases phase.symm.trans answered
      exact follows
    | arriving phase | calling phase | ended phase | refused phase | turnedAway phase =>
      cases phase.symm.trans answered
  obtain ⟨next, goes, same⟩ | ⟨report, ends, same⟩ :=
    s.serving.taken_cases d.setup i course reply
  · rw [same] at held due ⊢
    exact sound.entered due held rfl rfl (.calling (Function.update_self ..) (goes ▸ follows))
  · rw [same] at held due ⊢
    exact sound.entered due held rfl rfl (.ended (Function.update_self ..) (ends ▸ follows))

/-- Taking a notice into health leaves what is known of the notifications. -/
theorem noticing (sound : Sound d s) (n : Notice) {recorded : ι → Bool}
    (due : s.step? d move = some ⟨s.serving, s.health.note n, recorded⟩) :
    Sound d ⟨s.serving, s.health.note n, recorded⟩ where
  held := sound.held
  tracked i := (sound.tracked i).kept due rfl rfl
  noticed := by
    obtain ⟨notices, health⟩ := sound.noticed
    exact ⟨notices ++ [n], by rw [health, Health.noteAll_append]⟩

end Sound

/-- What a move does: the rules of `State.step?` with their conditions. -/
inductive Step (d : Desk ι) (s : State ι) : Move ι → State ι → Prop where
  | arrived {i : ι} (arriving : s.serving.phase i = .arriving) :
      Step d s (.arrive i) (s.arrived d i)
  | called {i : ι} {course : Course} (calling : s.serving.phase i = .calling course)
      (respond : (call : Call) → call.Reply) :
      Step d s (.call i respond)
        { s with serving := s.serving.called i course (respond course.call) }
  | taken {i : ι} {course : Course} {reply : course.call.Reply}
      (answered : s.serving.phase i = .answered course reply) :
      Step d s (.take i) { s with serving := s.serving.taken d.setup i course reply }
  | recorded {i : ι} {report : Report} (finished : s.serving.phase i = .finished report) :
      Step d s (.record i) (s.noted i report)
  | batch (outcome : LogBatch.Outcome) :
      Step d s (.batch outcome) { s with health := s.health.recordBatch outcome }

theorem State.step {move : Move ι} (due : s.step? d move = some s') : Step d s move s' := by
  cases move with
  | arrive i =>
    simp only [step?] at due
    split at due
    · rw [← Option.some.inj due]
      exact .arrived ‹_›
    · cases due
  | call i respond =>
    simp only [step?] at due
    split at due
    · rw [← Option.some.inj due]
      exact .called ‹_› respond
    · cases due
  | take i =>
    simp only [step?] at due
    split at due
    · rw [← Option.some.inj due]
      exact .taken ‹_›
    · cases due
  | record i =>
    simp only [step?] at due
    split at due
    · rw [← Option.some.inj due]
      exact .recorded ‹_›
    · cases due
  | batch outcome =>
    rw [← Option.some.inj due]
    exact .batch outcome

theorem Reachable.sound (reachable : Reachable d s) : Sound d s := by
  induction reachable with
  | start => exact .start
  | @step s s' move before due ih =>
    cases State.step due with
    | arrived arriving => exact ih.arrived before arriving
    | called calling respond => exact ih.called calling respond
    | taken answered => exact ih.taken answered
    | @recorded i report finished => exact ih.noticing (.cycle report.outcome) due
    | batch outcome => exact ih.noticing (.batch outcome) due

theorem State.arrived_health (i : ι) : (s.arrived d i).health = s.health := by
  unfold arrived
  split <;> rfl

/-- Whatever the collaborators answer and in whichever order notifications are handled and
their reports are taken into health: the allocation store goes back from unhealthy to healthy
by the report of a cycle to which the store or the orchestrator has answered, or of a request
that was turned away, without a call, while another for the same container was being served. -/
theorem store_restored_by_report (reachable : Reachable d s) {move : Move ι}
    (due : s.step? d move = some s') (down : s.health.status? .allocationStore = some .unhealthy)
    (up : s'.health.status? .allocationStore = some .healthy) :
    ∃ i report, move = .record i ∧ s.serving.phase i = .finished report ∧
      ((∃ x ∈ s.serving.transcript i, x.isAnswered = true) ∨ TurnedAway d s i report) := by
  have sound := reachable.sound
  obtain ⟨notices, health⟩ := sound.noticed
  -- A move that takes nothing into health is out of the question, and so is a notice that
  -- does not mend the store.
  have unchanged (same : s'.health = s.health) : False := by
    rw [same, down] at up
    cases up
  have mended (n : Notice) (noted : s'.health = s.health.note n) :
      n.mends .allocationStore = true := by
    rw [noted, health] at up
    rw [health] at down
    exact Health.mends_of_restored down (by decide) up
  cases State.step due with
  | arrived arriving => exact (unchanged (State.arrived_health _)).elim
  | called calling respond => exact (unchanged rfl).elim
  | taken answered => exact (unchanged rfl).elim
  | batch outcome => cases mended (.batch outcome) rfl
  | @recorded i report finished =>
    have clears : (Notice.cycle report.outcome).clears = true := mended (.cycle report.outcome) rfl
    refine ⟨i, report, rfl, finished, ?_⟩
    cases sound.tracked i with
    | arriving phase | calling phase | answered phase => cases phase.symm.trans finished
    | ended phase follows =>
      cases phase.symm.trans finished
      exact .inl (follows.answered_of_clears clears)
    | refused phase unasked =>
      cases phase.symm.trans finished
      rw [clears_of_intake unasked] at clears
      cases clears
    | turnedAway phase away =>
      cases phase.symm.trans finished
      exact .inr away

/-- Three triggers for one service. -/
def besieged : Desk (Fin 3) where
  rules := {}
  target :=
    { cluster := "main", service := "api", container := "api", family := "api"
      metricNamespace := "metrics", alarm := "memory" }
  text _ := "\x7b\"clusterName\":\"main\"\x7d"

/-- The first trigger uses up its attempts on an orchestrator that gives no answer. -/
def outage : List (Move (Fin 3)) :=
  .arrive 0 ::
    (List.replicate 4 [.call 0 fun _ => .error (.transient "no answer"), .take 0]).flatten ++
      [.record 0]

/-- Collaborators that answer what is read, and show a service that is at its ceiling. -/
def atCeiling : (call : Call) → call.Reply
  | .describeBinding cluster service =>
    .ok { cluster, service, container := "api", active := ⟨"api", 1⟩ }
  | .describe family => .ok { family, number := 1, cpu := 1024, memory := 4294967295 }
  | .register _ | .rebind .. | .patchAlarm .. => .error (.transient "no answer")

/-- The second trigger finds the collaborators back and the service at its ceiling. -/
def relief : List (Move (Fin 3)) :=
  outage ++ [.arrive 1, .call 1 atCeiling, .take 1, .call 1 atCeiling, .take 1]

/-- The second trigger puts the store back to health. -/
theorem relief_restores : ∃ s s',
    (Reachable besieged s ∧ s.step? besieged (.record 1) = some s' ∧
      s.health.status? .allocationStore = some .unhealthy ∧
      s'.health.status? .allocationStore = some .healthy) ∧
    ∃ i report, Move.record 1 = .record i ∧ s.serving.phase i = .finished report ∧
      ((∃ x ∈ s.serving.transcript i, x.isAnswered = true) ∨ TurnedAway besieged s i report) := by
  have ran : ((({} : State (Fin 3)).run? besieged relief).bind fun s =>
      (s.step? besieged (.record 1)).map fun s' =>
        (s.health.status? .allocationStore, s'.health.status? .allocationStore)) =
        some (some .unhealthy, some .healthy) := by decide +kernel
  obtain ⟨s, reached, later⟩ := Option.bind_eq_some_iff.mp ran
  obtain ⟨s', due, values⟩ := Option.map_eq_some_iff.mp later
  obtain ⟨down, up⟩ := Prod.mk.inj values
  have reachable : Reachable besieged s := Reachable.start.run reached
  exact ⟨s, s', ⟨reachable, due, down, up⟩, store_restored_by_report reachable due down up⟩

/-- After the outage the second trigger waits for its first answer when the third arrives. -/
def siege : List (Move (Fin 3)) := outage ++ [.arrive 1, .arrive 2]

/-- The report of the third trigger puts the store back to health, though no call has been
answered to anyone. -/
theorem recovery_unheard : ∃ s s', ({} : State (Fin 3)).run? besieged siege = some s ∧
    s.step? besieged (.record 2) = some s' ∧
    s.health.status? .allocationStore = some .unhealthy ∧
    s'.health.status? .allocationStore = some .healthy ∧
    ∀ i, ∀ x ∈ s'.serving.transcript i, x.isAnswered = false := by
  have ran : ((({} : State (Fin 3)).run? besieged siege).bind fun s =>
      (s.step? besieged (.record 2)).map fun s' =>
        (s.health.status? .allocationStore, s'.health.status? .allocationStore,
          decide (∀ i, (s'.serving.transcript i).all (!·.isAnswered)))) =
        some (some .unhealthy, some .healthy, true) := by decide +kernel
  obtain ⟨s, reached, later⟩ := Option.bind_eq_some_iff.mp ran
  obtain ⟨s', due, values⟩ := Option.map_eq_some_iff.mp later
  simp only [Prod.mk.injEq, decide_eq_true_eq, List.all_eq_true, Bool.not_eq_true'] at values
  exact ⟨s, s', reached, due, values⟩

end Recovery
end Headroom
