import Headroom.Proofs.CallOrder
import Headroom.Proofs.Orphans
import Headroom.Service.Api
import Headroom.Telemetry.Log

/-!
What a report tells of the handling of a notification, whatever its text and however the
collaborators answer. `Ends` lists the ways in which handling may end, each with the
states gone through by then. The views of a report are read off that list: its outcome,
its path, the lines in the log and the status of the answer agree (`report_agrees`).
-/
namespace Headroom

/-- The event is one of entering a state. -/
def Event.isTransition : Event → Bool
  | .transition .. => true
  | _ => false

namespace Cycle

/-- The states of a cycle between its first and its last, if nothing stops it. -/
def work : List State := [.describing, .computing, .registering, .rebinding, .adjustingAlarm]

/-- The states that a cycle has gone through when it is at a stage. -/
def Stage.path : Stage → List State
  | .readBinding | .readAllocation _ => [.idle, .describing]
  | .confirmBinding .. | .register .. => [.idle, .describing, .computing, .registering]
  | .rebind .. | .inspectBinding .. => [.idle, .describing, .computing, .registering, .rebinding]
  | .adjustAlarm .. => .idle :: work

/-- What handling a notification may come to, with the states gone through by then. -/
inductive Ends : Outcome → List State → Prop where
  | refused (error : Error) : Ends (.failed .idle error none) [.idle, .error]
  | ignored (state : AlarmState) : Ends (.ignored state) [.idle]
  | busy (detail : String) : Ends (.superseded detail none) [.idle]
  | undescribed (error : Error) :
      Ends (.failed .describing error none) [.idle, .describing, .error]
  | unplanned (error : Error) :
      Ends (.failed .computing error none) [.idle, .describing, .computing, .error]
  | saturated (current : Revision) (memory ceiling : UInt32) :
      Ends (.saturated current memory ceiling) [.idle, .describing, .computing, .idle]
  | overtaken (detail : String) :
      Ends (.superseded detail none) [.idle, .describing, .computing, .registering, .idle]
  | unregistered (error : Error) :
      Ends (.failed .registering error none) [.idle, .describing, .computing, .registering, .error]
  | beaten (detail : String) (new : Revision) :
      Ends (.superseded detail (some new))
        [.idle, .describing, .computing, .registering, .rebinding, .idle]
  | unbound (error : Error) (new : Revision) :
      Ends (.failed .rebinding error (some new))
        [.idle, .describing, .computing, .registering, .rebinding, .error]
  | scaled (previous new : Revision) (memory : UInt32) (alarm : String) (threshold : Float) :
      Ends (.scaled previous new memory (.patched alarm threshold)) (.idle :: work ++ [.idle])
  | leftBehind (previous new : Revision) (memory : UInt32) (alarm : String) (threshold : Float)
      (error : Error) :
      Ends (.scaled previous new memory (.stale alarm threshold error)) (.idle :: work ++ [.error])

/-- The states that a cycle has gone through are those of where it stands. -/
def Standing.Walked : Standing → Prop
  | .due c => c.path = c.stage.path
  | .ended report => Ends report.outcome report.path

/-- The states that a path leads to. -/
def Leads (path : List State) : Stage ⊕ Outcome → Prop
  | .inl stage => path = stage.path
  | .inr outcome => Ends outcome path

theorem Move.leads_plan (rules : Rules) (container : String) (expected : Revision)
    (current : Allocation) :
    Leads ((Stage.readAllocation expected).path ++
        (Move.plan rules container expected current).entered)
      (Move.plan rules container expected current).next := by
  unfold Move.plan
  split
  · rfl
  · exact .saturated ..
  · exact .unplanned _

/-- The states that a move enters lead to where it goes. -/
theorem Stage.leads_settle (rules : Rules) (r : Request) (stage : Stage)
    (reply : (stage.call r).Reply) :
    Leads (stage.path ++ (stage.settle rules r reply).entered)
      (stage.settle rules r reply).next := by
  cases stage with
  | readBinding =>
    cases reply with
    | ok b => rfl
    | error error => exact .undescribed error
  | readAllocation expected =>
    cases reply with
    | ok current => exact Move.leads_plan rules r.container expected current
    | error error => exact .undescribed error
  | confirmBinding expected candidate =>
    cases reply with
    | ok b =>
      simp only [settle]
      split
      · rfl
      · exact .overtaken _
    | error error => exact .unregistered error
  | register expected candidate =>
    cases reply with
    | ok new => rfl
    | error error => exact .unregistered error
  | rebind expected new memory =>
    cases reply with
    | ok _ => rfl
    | error error =>
      cases error with
      | conflict detail => rfl
      | _ => exact .unbound _ new
  | inspectBinding expected new memory conflict =>
    cases reply with
    | ok b =>
      simp only [settle]
      split
      · rfl
      · exact .beaten _ new
    | error error => exact .unbound error new
  | adjustAlarm expected new memory threshold =>
    cases reply with
    | ok _ => exact .scaled ..
    | error error => exact .leftBehind ..

/-- Entering states is told by their transitions alone. -/
theorem filter_transitions (family : String) (current : State) (entered : List State) :
    (transitions family current entered).filter Event.isTransition =
      transitions family current entered := by
  induction entered generalizing current with
  | nil => rfl
  | cons next rest ih => simp only [transitions, List.filter_cons, Event.isTransition, if_true, ih]

theorem transitions_append (family : String) (current : State) (entered later : List State) :
    transitions family current (entered ++ later) =
      transitions family current entered ++
        transitions family (entered.getLast?.getD current) later := by
  induction entered generalizing current with
  | nil => rfl
  | cons next rest ih =>
    rw [List.cons_append, transitions, ih, transitions, List.cons_append, List.getLast?_cons,
      Option.getD_some]

/-- What a move tells besides is no transition. -/
theorem Stage.told_settle (rules : Rules) (r : Request) (stage : Stage)
    (reply : (stage.call r).Reply) :
    (stage.settle rules r reply).told.filter Event.isTransition = [] := by
  cases stage with
  | readAllocation expected =>
    cases reply with
    | ok current =>
      simp only [settle, Move.plan]
      split <;> rfl
    | error error => rfl
  | rebind expected new memory =>
    cases reply with
    | ok _ => rfl
    | error error => cases error <;> rfl
  | confirmBinding expected candidate =>
    cases reply with
    | ok b =>
      simp only [settle]
      split <;> rfl
    | error error => rfl
  | inspectBinding expected new memory conflict =>
    cases reply with
    | ok b =>
      simp only [settle]
      split <;> rfl
    | error error => rfl
  | _ => cases reply <;> rfl

/-- The states that a cycle has gone through. -/
def Standing.path : Standing → List State
  | .due c => c.path
  | .ended report => report.path

/-- What a reply adds to the path, and what is told of that. -/
structure Course.Enters (c : Course) (turn : Course.Turn) (entered : List State) : Prop where
  path : turn.next.standing.path = c.path ++ entered
  walked : turn.next.standing.Walked
  told : turn.events.filter Event.isTransition = transitions c.request.family c.current entered
  request : ∀ next, turn.next.standing = .due next → next.request = c.request

/-- A reply takes a cycle along its way, and every step of that is told. -/
theorem Course.answer_enters (rules : Rules) (c : Course) (walked : c.path = c.stage.path)
    (reply : c.call.Reply) : ∃ entered, c.Enters (c.answer rules reply) entered := by
  unfold answer
  split
  · refine ⟨[], (List.append_nil _).symm, walked, rfl, ?_⟩
    rintro next ⟨⟩
    rfl
  · have leads := c.stage.leads_settle rules c.request reply
    have told := c.stage.told_settle rules c.request reply
    generalize c.stage.settle rules c.request reply = m at leads told
    rw [← walked] at leads
    refine ⟨m.entered, ?_⟩
    have events : (c.move m).events.filter Event.isTransition =
        transitions c.request.family c.current m.entered := by
      rw [move, List.filter_append, told, List.nil_append, filter_transitions]
    cases next : m.next with
    | inl stage =>
      have goes : (c.move m).next =
          .proceed { c with stage, attempt := 1, path := c.path ++ m.entered } := by
        simp only [move, next]
      rw [next] at leads
      refine ⟨by rw [goes]; rfl, by rw [goes]; exact leads, events, ?_⟩
      rw [goes]
      rintro _ ⟨⟩
      rfl
    | inr outcome =>
      have ends : (c.move m).next = .finish { outcome, path := c.path ++ m.entered } := by
        simp only [move, next]
      rw [next] at leads
      refine ⟨by rw [ends]; rfl, by rw [ends]; exact leads, events, ?_⟩
      rw [ends]
      rintro _ ⟨⟩

/-- A run goes on along the way of its cycle to one of the ends, and tells every step. -/
theorem Course.run_ends {σ : Type} (rules : Rules)
    (perform : σ → (call : Call) → call.Reply × σ) (world : σ) (c : Course)
    (walked : c.path = c.stage.path) :
    Ends (c.run rules perform world).report.outcome (c.run rules perform world).report.path ∧
      ∃ later, (c.run rules perform world).report.path = c.path ++ later ∧
        (c.run rules perform world).events.filter Event.isTransition =
          transitions c.request.family c.current later := by
  induction world, c using Course.run_induction rules perform with
  | ended world c report ends =>
    obtain ⟨entered, path, ended, told, -⟩ := c.answer_enters rules walked (perform world c.call).1
    rw [ends] at path ended
    rw [run_of_ended ends]
    exact ⟨ended, entered, path, told⟩
  | due world c next goes ih =>
    obtain ⟨entered, path, along, told, request⟩ :=
      c.answer_enters rules walked (perform world c.call).1
    rw [goes] at path along
    have request : next.request = c.request := request next goes
    have path : next.path = c.path ++ entered := path
    have current : next.current = entered.getLast?.getD c.current := by
      simp only [Course.current, path, List.getLast?_append]
      cases entered.getLast? <;> rfl
    obtain ⟨ends, later, further, events⟩ := ih along
    rw [run_of_due goes]
    refine ⟨ends, entered ++ later, ?_, ?_⟩
    · rw [further, path, List.append_assoc]
    · rw [List.filter_append, told, events, transitions_append, request, current]

end Cycle

namespace Telemetry

/-- The line about a change of state. -/
def transitionLine (family : String) (source target : Cycle.State) : Line :=
  ⟨"scaling_transition", .info, "Scaling state transition",
    [("family", .string family), ("from", .string source.label), ("to", .string target.label)]⟩

/-- The lines of one kind. -/
def linesOf (kind : String) (events : List Event) : List Line :=
  (log events).filter (·.event = kind)

/-- A line is about a change of state just when its event is. -/
theorem line?_isTransition {event : Event} {line : Line} (logged : line? event = some line) :
    decide (line.event = "scaling_transition") = event.isTransition := by
  cases event with
  | cycleEnded family outcome =>
    obtain rfl := Option.some.inj logged
    unfold cycleLine
    dsimp only
    split <;> rfl
  | batchHandled metricNamespace outcome =>
    cases outcome with
    | skipped => cases logged
    | _ =>
      obtain rfl := Option.some.inj logged
      rfl
  | retried operation | bound number | alarmLeftBehind | publishAttempted => cases logged
  | _ =>
    obtain rfl := Option.some.inj logged
    rfl

theorem linesOf_transition (events : List Event) :
    linesOf "scaling_transition" events = log (events.filter Event.isTransition) := by
  simp only [linesOf, log, List.filter_filterMap, List.filterMap_filter]
  refine List.filterMap_congr fun event _ => ?_
  cases logged : line? event with
  | none => simp
  | some line => simp [Option.filter, line?_isTransition logged]

/-- A path is logged as the pairs of its successive states. -/
theorem log_transitions (family : String) (current : Cycle.State) (entered : List Cycle.State) :
    log (Cycle.transitions family current entered) =
      ((current :: entered).zip entered).map fun (source, target) =>
        transitionLine family source target := by
  induction entered generalizing current with
  | nil => rfl
  | cons next rest ih =>
    exact congrArg (transitionLine family current next :: ·) (ih next)

end Telemetry

namespace Controller

open Headroom.Cycle

section

variable {σ : Type} (rules : Rules) (perform : σ → (call : Call) → call.Reply × σ)

/-- Handle one notification while other cycles hold some keys. -/
def handleBeside (held : InFlight) (target : Target) (world : σ) (text : String) :
    Course.Finished σ :=
  match intake target text with
  | .error report => ⟨report, reportEvents target.family report, world⟩
  | .ok r =>
    match held.take? r.key with
    | none => ⟨busyReport r, reportEvents r.family (busyReport r), world⟩
    | some _ => serve rules perform world r

end

/-- The family that the log of a notification is about. -/
def familyOf (target : Target) (text : String) : String :=
  match intake target text with
  | .ok r => r.family
  | .error _ => target.family

end Controller

namespace Cycle

/-- The views of what was done about a notification agree: a report, the events told on the
way, and the calls made. -/
structure Report.Agrees (report : Report) (family : String) (events : List Event)
    (calls : List Exchange) : Prop where
  /-- Handling begins idle, does its work from the start as far as it gets, and ends idle
  or in an error; or it does not begin. -/
  path : report.path = [.idle] ∨
    ∃ done last, done <+: work ∧ (last = .idle ∨ last = .error) ∧
      report.path = .idle :: done ++ [last]
  success : report.path.getLast? = some .idle ↔ report.isSuccess
  failed : ∀ state error orphan, report.outcome = .failed state error orphan →
    [state, .error] <:+ report.path ∧ state ≠ .adjustingAlarm
  scaled : (∃ previous new memory alarm, report.outcome = .scaled previous new memory alarm) ↔
    report.visited .adjustingAlarm
  orphan : report.outcome.orphan?.isSome ↔
    report.visited .rebinding ∧ ¬ report.visited .adjustingAlarm
  saturated : ∀ current memory ceiling, report.outcome = .saturated current memory ceiling →
    report.path = [.idle, .describing, .computing, .idle]
  /-- The log has one line for each pair of successive states, in their order. -/
  log : Telemetry.linesOf "scaling_transition" events =
    (report.path.zip report.path.tail).map fun (source, target) =>
      Telemetry.transitionLine family source target
  accepted : Service.cycleStatus report = 200 ↔ report.isSuccess
  refused : Service.cycleStatus report = 422 ↔ report.path = [.idle, .error]
  /-- Any other status is 502. -/
  status : Service.cycleStatus report ∈ [200, 422, 502]
  /-- A collaborator was called just when a cycle began. -/
  uncalled : calls = [] ↔ report.path = [.idle] ∨ report.path = [.idle, .error]

namespace Ends

variable {outcome : Outcome} {path : List State}

theorem shape (ends : Ends outcome path) :
    path = [.idle] ∨
      ∃ done last, done <+: work ∧ (last = .idle ∨ last = .error) ∧
        path = .idle :: done ++ [last] := by
  have between (n : Nat) (last : State) (is : last = .idle ∨ last = .error) :
      ∃ done last', done <+: work ∧ (last' = .idle ∨ last' = .error) ∧
        .idle :: work.take n ++ [last] = .idle :: done ++ [last'] :=
    ⟨work.take n, last, List.take_prefix n work, is, rfl⟩
  cases ends with
  | ignored state => exact .inl rfl
  | busy detail => exact .inl rfl
  | refused error => exact .inr (between 0 .error (.inr rfl))
  | undescribed error => exact .inr (between 1 .error (.inr rfl))
  | unplanned error => exact .inr (between 2 .error (.inr rfl))
  | saturated current memory ceiling => exact .inr (between 2 .idle (.inl rfl))
  | overtaken detail => exact .inr (between 3 .idle (.inl rfl))
  | unregistered error => exact .inr (between 3 .error (.inr rfl))
  | beaten detail new => exact .inr (between 4 .idle (.inl rfl))
  | unbound error new => exact .inr (between 4 .error (.inr rfl))
  | scaled => exact .inr (between 5 .idle (.inl rfl))
  | leftBehind => exact .inr (between 5 .error (.inr rfl))

theorem starts_idle (ends : Ends outcome path) : path = .idle :: path.tail := by
  cases ends <;> rfl

theorem success (ends : Ends outcome path) :
    path.getLast? = some .idle ↔ outcome.isSuccess := by
  cases ends <;> simp [Outcome.isSuccess, work]

theorem failed (ends : Ends outcome path) {state : State} {error : Error}
    {orphan : Option Revision} (fails : outcome = .failed state error orphan) :
    [state, .error] <:+ path ∧ state ≠ .adjustingAlarm := by
  cases ends <;> cases fails <;> decide

theorem scaled_iff (ends : Ends outcome path) :
    (∃ previous new memory alarm, outcome = .scaled previous new memory alarm) ↔
      .adjustingAlarm ∈ path := by
  cases ends <;> simp [work]

theorem orphan_isSome (ends : Ends outcome path) :
    outcome.orphan?.isSome ↔ .rebinding ∈ path ∧ .adjustingAlarm ∉ path := by
  cases ends <;> simp [Outcome.orphan?, work]

theorem saturated_path (ends : Ends outcome path) {current : Revision} {memory ceiling : UInt32}
    (saturated : outcome = .saturated current memory ceiling) :
    path = [.idle, .describing, .computing, .idle] := by
  cases ends <;> cases saturated
  rfl

theorem accepted (ends : Ends outcome path) :
    Service.cycleStatus ⟨outcome, path⟩ = 200 ↔ outcome.isSuccess := by
  cases ends <;> simp [Service.cycleStatus, Report.isSuccess, Outcome.isSuccess]

theorem refused_iff (ends : Ends outcome path) :
    Service.cycleStatus ⟨outcome, path⟩ = 422 ↔ path = [.idle, .error] := by
  cases ends <;> simp [Service.cycleStatus, Report.isSuccess, Outcome.isSuccess, work]

theorem status_mem (ends : Ends outcome path) :
    Service.cycleStatus ⟨outcome, path⟩ ∈ [200, 422, 502] := by
  cases ends <;> simp [Service.cycleStatus, Report.isSuccess, Outcome.isSuccess]

end Ends

/-- The views of a report agree where it is one of the ends, its path was told and its calls
are those of a cycle. -/
theorem Report.agrees_of_ends {report : Report} {family : String} {events : List Event}
    {calls : List Exchange} (ends : Ends report.outcome report.path)
    (told : events.filter Event.isTransition = transitions family .idle report.path.tail)
    (uncalled : calls = [] ↔ report.path = [.idle] ∨ report.path = [.idle, .error]) :
    report.Agrees family events calls where
  path := ends.shape
  success := ends.success
  failed _ _ _ := ends.failed
  scaled := by simpa [Report.visited] using ends.scaled_iff
  orphan := by simpa [Report.visited] using ends.orphan_isSome
  saturated _ _ _ := ends.saturated_path
  log := by
    rw [Telemetry.linesOf_transition, told, Telemetry.log_transitions, ← ends.starts_idle]
  accepted := ends.accepted
  refused := ends.refused_iff
  status := ends.status_mem
  uncalled := uncalled

section

variable {σ : Type} (rules : Rules) (perform : σ → (call : Call) → call.Reply × σ)

/-- A cycle that is run makes a call. -/
theorem Follows.called {r : Request} {transcript : List Exchange} {report : Report}
    (follows : Follows rules r transcript (.ended report)) : transcript ≠ [] := by
  generalize at_end : Standing.ended report = standing at follows
  cases follows with
  | start => cases at_end
  | answer reply before => simp

theorem serve_agrees (world : σ) (r : Request) :
    let done := Controller.serve rules (recorded perform) (world, []) r
    done.report.Agrees r.family done.events done.world.2 := by
  obtain ⟨ends, later, path, told⟩ :=
    (Course.start r).run_ends rules (recorded perform) (world, []) rfl
  have path : ((Course.start r).run rules (recorded perform) (world, [])).report.path =
      .idle :: .describing :: later := path
  refine Report.agrees_of_ends ends ?_ ?_
  · simp only [Controller.serve, List.filter_append, told, path]
    exact List.append_nil _
  · refine iff_of_false (Course.run_follows rules perform world r).called ?_
    simp [Controller.serve, path]

/-- A report that is given without a cycle. -/
theorem reportEvents_agrees {report : Report} (family : String)
    (ends : Ends report.outcome report.path)
    (short : report.path = [.idle] ∨ report.path = [.idle, .error]) :
    report.Agrees family (Controller.reportEvents family report) [] := by
  refine Report.agrees_of_ends ends ?_ (iff_of_true rfl short)
  rw [Controller.reportEvents, List.filter_append, filter_transitions]
  exact List.append_nil _

/-- What is answered at once is one of the ends. -/
theorem intake_ends {target : Target} {text : String} {report : Report}
    (answered : Controller.intake target text = .error report) :
    Ends report.outcome report.path ∧ (report.path = [.idle] ∨ report.path = [.idle, .error]) := by
  unfold Controller.intake at answered
  split at answered
  · cases answered
    exact ⟨.refused _, .inr rfl⟩
  · split at answered
    · split at answered
      · cases answered
      · cases answered
        exact ⟨.refused _, .inr rfl⟩
    · cases answered
      exact ⟨.ignored _, .inl rfl⟩

end

/-- Whatever the text of a notification and however the collaborators answer, all that is
told of its handling agrees. -/
theorem report_agrees {σ : Type} (rules : Rules)
    (perform : σ → (call : Call) → call.Reply × σ) (held : InFlight) (target : Target)
    (world : σ) (text : String) :
    let done := Controller.handleBeside rules (recorded perform) held target (world, []) text
    { done with world := done.world.1 } =
        Controller.handleBeside rules perform held target world text ∧
      done.report.Agrees (Controller.familyOf target text) done.events done.world.2 := by
  dsimp only
  unfold Controller.handleBeside Controller.familyOf
  cases answered : Controller.intake target text with
  | error report =>
    obtain ⟨ends, short⟩ := intake_ends answered
    exact ⟨rfl, reportEvents_agrees target.family ends short⟩
  | ok r =>
    dsimp only
    cases held.take? r.key with
    | none => exact ⟨rfl, reportEvents_agrees r.family (.busy _) (.inl rfl)⟩
    | some taken =>
      exact ⟨serve_recorded rules perform world r, serve_agrees rules perform world r⟩

end Cycle
end Headroom
