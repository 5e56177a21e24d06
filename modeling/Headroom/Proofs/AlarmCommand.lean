import Mathlib
import Headroom.Console.Errand
import Headroom.Proofs.AlarmStates
import Headroom.Proofs.JsonText
import Headroom.Proofs.Reports
import Headroom.Proofs.Retargeting
import Headroom.Proofs.SeededRuns

/-!
What becomes of the command that delivers an alarm's state. Its texts are written into a JSON
text within a JSON text, whatever characters they have, and the service reads them out again
(`ofText_notification`). So on stores that hold the configured service the command has a cycle
run for it by the name of the alarm state, and changes nothing by any other name
(`alarm_command_runs_cycle`). A body beyond the service's limit is refused unread; texts of up to
299000 bytes together stay below it, whatever has to be escaped in them (`notification_short`).
-/
namespace Headroom

namespace Json

theorem length_toUTF8 (text : String) : text.toUTF8.toList.length = text.utf8ByteSize := by
  rw [toList_eq_data, Array.length_toList]
  rfl

theorem utf8ByteSize_eq (text : String) : text.utf8ByteSize = (utf8 text.toList).length := by
  rw [← length_toUTF8, toUTF8_toList]

/-- The bytes that a text takes within a literal. -/
def escapedSize (chars : List Char) : Nat := (utf8 (chars.flatMap escapeChar)).length

theorem escapedSize_append (first second : List Char) :
    escapedSize (first ++ second) = escapedSize first + escapedSize second := by
  rw [escapedSize, List.flatMap_append, utf8_append, List.length_append]
  rfl

/-- Within two literals a byte takes at most seven. -/
theorem escapedSize_escapeChar (c : Char) :
    escapedSize (escapeChar c) ≤ 7 * (String.utf8EncodeChar c).length := by
  have controls : ∀ n < 0x20, escapedSize (escapeChar (Char.ofNat n)) ≤ 7 := by decide +kernel
  have bytes := String.length_utf8EncodeChar c
  have positive : 0 < (String.utf8EncodeChar c).length := by
    rw [bytes]
    exact c.utf8Size_pos
  by_cases control : c.toNat < 0x20
  · have few := controls c.toNat control
    rw [Char.ofNat_toNat] at few
    omega
  by_cases quote : c = '\x22'
  · subst quote
    decide
  by_cases slash : c = '\x5c'
  · subst slash
    decide
  have printed : escapeChar c = [c] := by
    unfold escapeChar
    split
    case h_1 => exact absurd rfl quote
    case h_2 => exact absurd rfl slash
    case h_8 => exact if_neg control
    all_goals exact absurd (by decide) control
  rw [printed, escapedSize, List.flatMap_singleton, printed, utf8_cons, utf8_nil, List.append_nil]
  omega

theorem escapedSize_flatMap (chars : List Char) :
    escapedSize (chars.flatMap escapeChar) ≤ 7 * (utf8 chars).length := by
  induction chars with
  | nil => exact Nat.le_refl _
  | cons c rest ih =>
    have here := escapedSize_escapeChar c
    rw [List.flatMap_cons, escapedSize_append, utf8_cons, List.length_append]
    omega

theorem escapedSize_quote (text : String) :
    escapedSize (quote text).toList ≤ 7 * text.utf8ByteSize + 4 := by
  have inner := escapedSize_flatMap text.toList
  have mark : escapedSize ['\x22'] = 2 := by decide
  rw [quote, String.toList_ofList, List.cons_append, ← List.singleton_append, escapedSize_append,
    escapedSize_append, mark, utf8ByteSize_eq]
  omega

theorem utf8ByteSize_quote (text : String) :
    (quote text).utf8ByteSize = escapedSize text.toList + 2 := by
  have mark : String.utf8EncodeChar '\x22' = [0x22] := by decide
  rw [utf8ByteSize_eq, quote, String.toList_ofList, List.cons_append, utf8_cons, utf8_append,
    utf8_cons, utf8_nil, mark]
  simp only [List.length_append, List.length_singleton, List.append_nil, escapedSize]
  omega

end Json

namespace Console

/-- The message in the envelope of a notification. -/
def alarmMessage (state : String) (name : Option String) (reason : String) : Json :=
  .object
    (optionalMember "AlarmName" .string name ++
      [("NewStateReason", .string reason), ("NewStateValue", .string state)])

theorem alarmMessage_read (state : String) (name : Option String) (reason : String) :
    Json.ofString? (alarmMessage state name reason).render =
      some (alarmMessage state name reason) := by
  rw [Json.ofString?_render]
  cases name <;> rfl

theorem notification_read (state : String) (name : Option String) (reason : String) :
    Json.ofString? (notification state name reason).render =
      some (notification state name reason) := by
  rw [Json.ofString?_render]
  rfl

theorem notification_carries (state : String) (name : Option String) (reason : String) :
    Notification.Carries (notification state name reason).render
      (alarmMessage state name reason) := by
  have read := alarmMessage_read state name reason
  exact ⟨_, notification_read state name reason, Notification.unwrap_of_records rfl rfl read⟩

/-- What the service is to understand of a state, an alarm and a reason. -/
def meaning (state : String) (name : Option String) (reason : String) :
    Except Error Notification :=
  match state with
  | "ALARM" => .ok { alarm := name, state := some .alarm, reason := some reason }
  | "OK" => .ok { alarm := name, state := some .ok, reason := some reason }
  | "INSUFFICIENT_DATA" =>
    .ok { alarm := name, state := some .insufficientData, reason := some reason }
  | unknown => .error (.validation ("unknown alarm state '" ++ unknown ++ "'"))

theorem ofText_notification (state : String) (name : Option String) (reason : String) :
    Notification.ofText (notification state name reason).render = meaning state name reason := by
  rw [(notification_carries state name reason).ofText]
  unfold meaning
  split
  · cases name <;> rfl
  · cases name <;> rfl
  · cases name <;> rfl
  · rename_i alarm ok insufficient
    have named : Notification.text? (alarmMessage state name reason) "NewStateValue" =
        some state := by
      cases name <;> rfl
    have unknown : AlarmState.ofName? state = none := by
      unfold AlarmState.ofName? AlarmState.all
      rw [List.find?_eq_none]
      intro known listed same
      rw [← beq_iff_eq.mp same] at alarm ok insufficient
      cases known
      · exact alarm rfl
      · exact ok rfl
      · exact insufficient rfl
    apply Notification.ofMessage_of_refused (by cases name <;> rfl)
    simp only [Notification.stateOf, named, unknown]

end Console

namespace Cycle

theorem Course.path_move (c : Course) (m : Move) :
    (c.move m).next.standing.path = c.path ++ m.entered := by
  unfold move
  cases m.next <;> rfl

/-- No state that was entered is forgotten. -/
theorem Course.path_prefix_answer (rules : Rules) (c : Course) (reply : c.call.Reply) :
    c.path <+: (c.answer rules reply).next.standing.path := by
  unfold answer
  split
  · exact List.prefix_rfl
  · rw [path_move]
    exact List.prefix_append ..

/-- Whatever the rules make of the latest allocation, they are applied to it. -/
theorem Move.computing_mem_plan (rules : Rules) (container : String) (expected : Revision)
    (current : Allocation) :
    State.computing ∈ (Move.plan rules container expected current).entered := by
  unfold Move.plan
  split <;> exact List.mem_cons_self

section

variable {rules : Rules} {r : Request} {s : Stores} {b : Binding} {a : Allocation}

/-- The two reads that a cycle begins with, where both are answered. -/
def reads (r : Request) (b : Binding) (a : Allocation) : List Exchange :=
  [⟨.describeBinding r.cluster r.service, .ok b⟩, ⟨.describe r.family, .ok a⟩]

/-- How far a cycle has come that reads what is there: to one of its reads, or past them. -/
inductive Reading (r : Request) (s : Stores) (b : Binding) (a : Allocation) :
    Stores × List Exchange → Standing → Prop where
  | binding : Reading r s b a (s, []) (.due (Course.start r))
  | allocation : Reading r s b a (s, [⟨.describeBinding r.cluster r.service, .ok b⟩])
      (.due { request := r, stage := .readAllocation b.active, path := [.idle, .describing] })
  | past {w : Stores × List Exchange} {standing : Standing} (calls : reads r b a <+: w.2)
      (planned : .computing ∈ standing.path) : Reading r s b a w standing

theorem Reading.step (bound : s.fleet.describe r.cluster r.service = .ok b)
    (latest : s.registry.describe r.family = .ok a) (w : Stores × List Exchange) (c : Course)
    (reading : Reading r s b a w (.due c)) :
    Reading r s b a (recorded Stores.perform w c.call).2
      (c.answer rules (recorded Stores.perform w c.call).1).next.standing := by
  cases reading with
  | binding =>
    simp only [Course.start, recorded, Stores.perform, bound]
    exact .allocation
  | allocation =>
    apply Reading.past
    · simp only [recorded, Stores.perform, latest]
      exact List.prefix_rfl
    · simp only [recorded, Stores.perform, latest]
      change .computing ∈ (Course.move _ (.plan rules r.container b.active a)).next.standing.path
      rw [Course.path_move]
      exact List.mem_append_right _ (Move.computing_mem_plan ..)
  | past calls planned =>
    apply Reading.past
    · exact calls.trans (List.prefix_append ..)
    · exact (c.path_prefix_answer rules _).subset planned

/-- A cycle on stores that hold its service and its family reads both, and plans from them. -/
theorem run_reads (rules : Rules) (bound : s.fleet.describe r.cluster r.service = .ok b)
    (latest : s.registry.describe r.family = .ok a) :
    let done := (Course.start r).run rules (recorded Stores.perform) (s, [])
    reads r b a <+: done.world.2 ∧ done.report.visited .computing := by
  intro done
  have reading : Reading r s b a done.world (.ended done.report) :=
    Course.run_keeps (Reading.step bound latest) (s, []) (Course.start r) .binding
  generalize ended : Standing.ended done.report = standing at reading
  generalize done.world = w at reading ⊢
  cases reading with
  | past calls planned =>
    subst ended
    exact ⟨calls, decide_eq_true planned⟩
  | _ => cases ended

end

end Cycle

/-- The stores hold the service that is looked after and its family. -/
structure Stores.Hold (s : Stores) (target : Target) : Prop where
  bound : ∃ b, s.fleet.describe target.cluster target.service = .ok b
  latest : ∃ a, s.registry.describe target.family = .ok a

theorem InStep.hold {p : ThresholdPolicy} {target : Target} {s : Stores} {latest : Allocation}
    (inStep : InStep p target s latest) : s.Hold target where
  bound := by
    have bound := inStep.bound
    unfold Stores.bound? Fleet.bound? at bound
    obtain ⟨b, found, -⟩ := Option.map_eq_some_iff.mp bound
    exact ⟨b, by simp only [Fleet.describe, found]⟩
  latest := ⟨latest, by simp only [Registry.describe, inStep.stocked.last]⟩

namespace Controller

open Headroom.Cycle

/-- A cycle for the configured target is run: the calls are those of a request for it, begin
with reading its binding and its latest allocation, and lead on to planning. -/
def RunsCycle (rules : Rules) (target : Target) (s : Stores) (text : String) : Prop :=
  let done := handle rules (recorded Stores.perform) target (s, []) text
  ∃ r b a, r.IsFor target ∧ Follows rules r done.world.2 (.ended done.report) ∧
    reads r b a <+: done.world.2 ∧ done.report.visited .computing

theorem runsCycle_of_intake {rules : Rules} {target : Target} {s : Stores} {text : String}
    {r : Request} (held : s.Hold target) (taken : intake target text = .ok r)
    (about : r.IsFor target) : RunsCycle rules target s text := by
  obtain ⟨b, bound⟩ := held.bound
  obtain ⟨a, latest⟩ := held.latest
  rw [← about.cluster, ← about.service] at bound
  rw [← about.family] at latest
  unfold RunsCycle handle
  rw [taken]
  obtain ⟨calls, planned⟩ := run_reads rules bound latest
  exact ⟨r, b, a, about, Course.run_follows rules Stores.perform s r, calls, planned⟩

/-- What is answered at once has no calls made. -/
theorem handle_of_answered {rules : Rules} {target : Target} {s : Stores} {text : String}
    {report : Report} (answered : intake target text = .error report) :
    ¬ RunsCycle rules target s text ∧
      Retargeting.callsFor rules Stores.perform target s text = [] ∧
      (handle rules Stores.perform target s text).world = s := by
  unfold RunsCycle Retargeting.callsFor handle
  simp only [answered, and_true]
  rintro ⟨r, b, a, -, -, calls, -⟩
  exact absurd (List.prefix_nil.mp calls) (List.cons_ne_nil _ _)

end Controller

namespace Console

open Headroom.Controller (RunsCycle)
open Headroom.Gateway (HttpRequest Url)
open Headroom.Json (escapedSize escapedSize_append escapedSize_quote utf8ByteSize_quote
  length_toUTF8 fromUTF8?_utf8 toUTF8_toList render renderItems renderMembers quote)
open Headroom.Service (Incoming Route State bodyLimit cycleStatus CycleAnswer)

/-- The name of the alarm state makes a request for the configured target. -/
theorem intake_alarm (target : Target) (name : Option String) (reason : String) :
    ∃ r, Controller.intake target (notification "ALARM" name reason).render = .ok r ∧
      r.IsFor target := by
  unfold Controller.intake
  rw [ofText_notification]
  cases name <;> exact ⟨_, rfl, ⟨rfl, rfl, rfl, rfl⟩⟩

/-- A text other than that name does not ask for a cycle, or is refused. -/
theorem meaning_other {state : String} (other : state ≠ "ALARM") (name : Option String)
    (reason : String) :
    (∃ n, meaning state name reason = .ok n ∧ n.asksToScale = false) ∨
      ∃ error, meaning state name reason = .error error := by
  unfold meaning
  split
  · exact absurd rfl other
  · exact .inl ⟨_, rfl, rfl⟩
  · exact .inl ⟨_, rfl, rfl⟩
  · exact .inr ⟨_, rfl⟩

theorem intake_other (target : Target) {state : String} (other : state ≠ "ALARM")
    (name : Option String) (reason : String) :
    ∃ report, Controller.intake target (notification state name reason).render =
      .error report := by
  unfold Controller.intake
  rw [ofText_notification]
  rcases meaning_other other name reason with ⟨n, read, calm⟩ | ⟨error, refused⟩
  · simp only [read, calm]
    exact ⟨_, rfl⟩
  · rw [refused]
    exact ⟨_, rfl⟩

/-- The message takes seven bytes in its envelope for each byte of its texts, and its frame. -/
theorem escapedSize_alarmMessage (state : String) (name : Option String) (reason : String) :
    escapedSize (alarmMessage state name reason).render.toList ≤
      7 * (state.utf8ByteSize + (name.getD "").utf8ByteSize + reason.utf8ByteSize) + 80 := by
  have alarm := escapedSize_quote (name.getD "")
  have because := escapedSize_quote reason
  have reported := escapedSize_quote state
  have keys : escapedSize (quote "AlarmName").toList = 13 ∧
      escapedSize (quote "NewStateReason").toList = 18 ∧
      escapedSize (quote "NewStateValue").toList = 17 := by
    decide +kernel
  have marks : escapedSize "\x7b".toList = 1 ∧ escapedSize ":".toList = 1 ∧
      escapedSize ",".toList = 1 ∧ escapedSize "\x7d".toList = 1 ∧
      escapedSize "".toList = 0 := by
    decide +kernel
  cases name <;>
    simp only [alarmMessage, optionalMember, List.nil_append, List.cons_append, render,
      renderMembers, String.toList_append, escapedSize_append, Option.getD_some, keys, marks] at *
  · omega
  · omega

/-- The body of the command's request is within the service's limit, if its texts have no more
than 299000 bytes together. -/
theorem notification_short {state : String} {name : Option String} {reason : String}
    (short : state.utf8ByteSize + (name.getD "").utf8ByteSize + reason.utf8ByteSize ≤ 299000) :
    (notification state name reason).render.toUTF8.toList.length ≤ Service.bodyLimit := by
  have message := escapedSize_alarmMessage state name reason
  have names : (quote "Records").utf8ByteSize = 9 ∧ (quote "Sns").utf8ByteSize = 5 ∧
      (quote "Message").utf8ByteSize = 9 := by
    decide +kernel
  have marks : "[".utf8ByteSize = 1 ∧ "]".utf8ByteSize = 1 ∧ "\x7b".utf8ByteSize = 1 ∧
      "\x7d".utf8ByteSize = 1 ∧ ":".utf8ByteSize = 1 ∧ "".utf8ByteSize = 0 := by
    decide +kernel
  have limit : Service.bodyLimit = 2097152 := rfl
  rw [length_toUTF8, limit]
  unfold alarmMessage at message
  simp only [notification, render, renderItems, renderMembers, String.utf8ByteSize_append, names,
    marks, utf8ByteSize_quote]
  omega

/-- A notification beyond the limit is refused unread. -/
theorem respond_long {σ : Type} (c : Service.Collaborators σ) (s : State σ) {q : Incoming}
    (route : Route.ofTarget? q.target = some .notifications) (posted : q.method = "POST")
    (long : bodyLimit < q.body.length) : s.respond c q = (some ⟨413, none⟩, s) := by
  have taken : q.method ∈ Route.notifications.methods := by
    rw [posted]
    decide
  unfold State.respond
  simp only [route, taken, not_true_eq_false, if_false]
  unfold State.postNotification
  rw [if_pos long]

/-- The post of a command as the service gets it. -/
structure Delivers (request : HttpRequest) (q : Incoming) : Prop where
  method : q.method = request.method
  target : q.target = request.url.requestTarget
  body : ∀ json, request.body = some json → q.body = json.render.toUTF8.toList

/-- The command posts its notification to the service at the root of a URL. -/
theorem alarm_posts {url : String} {base : Url} (parsed : Url.parse url = .ok base)
    (root : base.path = .segments [""]) (state : String) (name : Option String) (reason : String)
    (format : Format) :
    ∃ request finish, alarm url state name reason format = .ok (.ask request finish) ∧
      request.method = "POST" ∧
      Route.ofTarget? request.url.requestTarget = some .notifications ∧
      request.body = some (notification state name reason) := by
  have joined : base.join? ["v1", "alarm-notifications"] =
      some { base with path := .segments ["v1", "alarm-notifications"], query := none } := by
    simp only [Url.join?, root]
    rfl
  have command : alarm url state name reason format = .ok (.ask
      ⟨"POST", { base with path := .segments ["v1", "alarm-notifications"], query := none },
        some (notification state name reason)⟩ (showCycle format)) := by
    simp only [alarm, baseUrl, parsed, Except.mapError, bind, Except.bind, resource, joined]
    rfl
  refine ⟨_, _, command, rfl, ?_, rfl⟩
  have target : ({ base with
      path := .segments ["v1", "alarm-notifications"], query := none } : Url).requestTarget =
        "/v1/alarm-notifications" := by
    rfl
  rw [target]
  decide +kernel

/-- Whatever texts the command is given, the service understands them as they were meant: the
three states by their names, with the alarm, the reason and nothing else, and any other name as
an unknown state. A service on stores that hold what it looks after runs a cycle for that
exactly by the name of the alarm state; by any other it makes no call. The command's post has
the notification handled so, if its body is within the limit, as it is with texts of up to 299000
bytes together. -/
theorem alarm_command_runs_cycle (s : State Stores) (held : s.world.Hold s.pipeline.target)
    (state : String) (name : Option String) (reason : String) :
    let text := (notification state name reason).render
    Notification.ofText text = meaning state name reason ∧
    (RunsCycle s.rules s.pipeline.target s.world text ↔ state = "ALARM") ∧
    (state ≠ "ALARM" →
      Retargeting.callsFor s.rules Stores.perform s.pipeline.target s.world text = [] ∧
        (s.notify .stores text).2.world = s.world) ∧
    (∀ {url : String} {base : Url} (format : Format), Url.parse url = .ok base →
      base.path = .segments [""] → ∃ request finish,
        alarm url state name reason format = .ok (.ask request finish) ∧
        ∀ q, Delivers request q → s.respond .stores q =
          if bodyLimit < q.body.length then (some ⟨413, none⟩, s)
          else
            (some ⟨cycleStatus (s.notify .stores text).1,
                some (CycleAnswer.ofReport (s.notify .stores text).1).toJson⟩,
              (s.notify .stores text).2)) ∧
    (state.utf8ByteSize + (name.getD "").utf8ByteSize + reason.utf8ByteSize ≤ 299000 →
      text.toUTF8.toList.length ≤ bodyLimit) := by
  intro text
  refine ⟨ofText_notification state name reason, ⟨?_, ?_⟩, ?_, ?_, notification_short⟩
  · intro runs
    by_contra other
    obtain ⟨report, answered⟩ := intake_other s.pipeline.target other name reason
    exact (Controller.handle_of_answered answered).1 runs
  · rintro rfl
    obtain ⟨r, taken, about⟩ := intake_alarm s.pipeline.target name reason
    exact Controller.runsCycle_of_intake held taken about
  · intro other
    obtain ⟨report, answered⟩ := intake_other s.pipeline.target other name reason
    exact (Controller.handle_of_answered answered).2
  · intro url base format parsed root
    obtain ⟨request, finish, command, posted, route, body⟩ :=
      alarm_posts parsed root state name reason format
    refine ⟨request, finish, command, fun q delivered => ?_⟩
    have written := delivered.body _ body
    have route : Route.ofTarget? q.target = some .notifications := delivered.target ▸ route
    have posted : q.method = "POST" := delivered.method.trans posted
    have read : String.fromUTF8? ⟨q.body.toArray⟩ = some text := by
      rw [written, toUTF8_toList]
      exact fromUTF8?_utf8 text
    split
    · exact respond_long .stores s route posted ‹_›
    · exact State.respond_notification .stores s route posted (Nat.not_lt.mp ‹_›) read

/-- A reason with what has to be escaped, twice over. -/
def quotedReason : String := "\"90%\"\\of\t512\nMiB\x07 ☃𝄞"

theorem quoted_alarm_runs_cycle :
    let s := State.ofSettings Service.plainSettings Health.initial Service.plainSettings.stores
    s.world.Hold s.pipeline.target ∧
      Notification.ofText (notification "ALARM" none quotedReason).render =
        .ok { state := some .alarm, reason := some quotedReason } ∧
      RunsCycle s.rules s.pipeline.target s.world
        (notification "ALARM" none quotedReason).render ∧
      ¬ RunsCycle s.rules s.pipeline.target s.world
        (notification "alarm" none quotedReason).render ∧
      ∃ request finish, alarm "http://localhost:8080" "ALARM" none quotedReason .table =
        .ok (.ask request finish) := by
  intro s
  have validated : Service.plainSettings.validate = .ok () := by decide +kernel
  have held : s.world.Hold s.pipeline.target :=
    (Service.Settings.stores_inStep (Service.plainSettings.valid validated)).hold
  obtain ⟨understood, runs, -, posts, -⟩ :=
    alarm_command_runs_cycle s held "ALARM" none quotedReason
  have other := (alarm_command_runs_cycle s held "alarm" none quotedReason).2.1
  have parsed : ∃ base, Url.parse "http://localhost:8080" = .ok base ∧
      base.path = .segments [""] := ⟨_, by cbv, rfl⟩
  obtain ⟨base, parsed, root⟩ := parsed
  obtain ⟨request, finish, command, -⟩ := posts .table parsed root
  exact ⟨held, understood, runs.mpr rfl, fun runs => absurd (other.mp runs) (by decide), request,
    finish, command⟩

end Console
end Headroom
