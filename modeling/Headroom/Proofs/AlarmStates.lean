import Headroom.Proofs.Reports
import Headroom.Proofs.Retargeting

/-!
What the state that a message reports decides. The message of an alarm names in one of its
members the state that the alarm went to. A text there is followed by calls only if it is
the name of the alarm state; any other text is ignored or refused, and nothing changes
(`state_text_decides`). A value there that is no text is not seen: the message is read as if
it had no such member, as a trigger, and a trigger is followed by a cycle whatever the value
was meant to say (`listed_state_scales`).
-/
namespace Headroom

theorem AlarmState.name_ofName? {name : String} {state : AlarmState}
    (named : ofName? name = some state) : state.name = name := by
  have found := List.find?_some named
  simpa using found

namespace Json

/-- The value less one of its members. -/
def without (key : String) : Json → Json
  | .object members => .object (members.filter (·.1 != key))
  | other => other

theorem member?_without_other {key other : String} (different : other ≠ key) (value : Json) :
    (value.without key).member? other = value.member? other := by
  cases value with
  | object members =>
    simp only [without, member?, List.find?_filter]
    congr 2
    funext member
    by_cases here : member.1 = other
    · simp [here, different]
    · simp [here]
  | _ => rfl

theorem member?_without_self (key : String) (value : Json) :
    (value.without key).member? key = none := by
  cases value with
  | object members => simp [without, member?]
  | _ => rfl

theorem isObject_without (key : String) (value : Json) :
    (value.without key).isObject = value.isObject := by
  cases value <;> rfl

/-- Only an object has members. -/
theorem isObject_of_member? {key : String} {value found : Json}
    (member : value.member? key = some found) : value.isObject = true := by
  cases value with
  | object members => rfl
  | _ => cases member

end Json

namespace Notification

/-- A text is a message, or the envelope of a fan-out topic around it. -/
def Carries (text : String) (message : Json) : Prop :=
  ∃ value, Json.ofString? text = some value ∧ unwrap value = .ok message

theorem Carries.ofText {text : String} {message : Json} (carried : Carries text message) :
    ofText text = ofMessage message := by
  obtain ⟨value, read, unwrapped⟩ := carried
  simp only [Notification.ofText, read, unwrapped]
  rfl

/-- The first record of an envelope carries the message that its text is read as. -/
theorem unwrap_of_records {value records message : Json} {text : String}
    (held : value.member? "Records" = some records)
    (first : ((records.item? 0).bind (·.member? "Sns")).bind (·.member? "Message") =
      some (.string text))
    (read : Json.ofString? text = some message) : unwrap value = .ok message := by
  simp only [unwrap, held, first, read]

theorem text?_without_other {key other : String} (different : other ≠ key) (message : Json) :
    text? (message.without key) other = text? message other := by
  unfold text?
  rw [Json.member?_without_other different]

/-- A message that names no state reports none. -/
theorem stateOf_of_unnamed {message : Json} (unnamed : text? message "NewStateValue" = none) :
    stateOf message = .ok none := by
  unfold stateOf
  rw [unnamed]

/-- A message that names a state reports it, or is refused if there is no such state. -/
theorem stateOf_of_named {message : Json} {name : String}
    (named : text? message "NewStateValue" = some name) :
    (∃ state, AlarmState.ofName? name = some state ∧ stateOf message = .ok (some state)) ∨
      ∃ detail, stateOf message = .error (.validation detail) := by
  simp only [stateOf, named]
  cases AlarmState.ofName? name with
  | some state => exact .inl ⟨state, rfl, rfl⟩
  | none => exact .inr ⟨_, rfl⟩

/-- Without a named state it makes no difference whether the member is there. -/
theorem ofMessage_without {message : Json} (unnamed : text? message "NewStateValue" = none) :
    ofMessage message = ofMessage (message.without "NewStateValue") := by
  have unnamed' : text? (message.without "NewStateValue") "NewStateValue" = none := by
    unfold text?
    rw [Json.member?_without_self]
    rfl
  unfold ofMessage
  simp only [Json.isObject_without, stateOf_of_unnamed unnamed, stateOf_of_unnamed unnamed']
  simp only [text?_without_other (show "AlarmName" ≠ "NewStateValue" by decide),
    text?_without_other (show "NewStateReason" ≠ "NewStateValue" by decide),
    text?_without_other (show "reason" ≠ "NewStateValue" by decide),
    text?_without_other (show "clusterName" ≠ "NewStateValue" by decide),
    text?_without_other (show "serviceName" ≠ "NewStateValue" by decide),
    text?_without_other (show "containerName" ≠ "NewStateValue" by decide),
    text?_without_other (show "family" ≠ "NewStateValue" by decide),
    Json.member?_without_other (show "Trigger" ≠ "NewStateValue" by decide)]

/-- A message that names a state is read with that state. -/
theorem ofMessage_of_state {message : Json} {state : AlarmState} (object : message.isObject)
    (reported : stateOf message = .ok (some state)) :
    ∃ n, ofMessage message = .ok n ∧ n.state = some state := by
  unfold ofMessage
  simp only [object, reported, if_true, bind, Except.bind, Option.isNone_some, Bool.false_eq_true,
    false_and, and_false, if_false, Except.ok.injEq, exists_eq_left']

theorem ofMessage_of_refused {message : Json} {error : Error} (object : message.isObject)
    (refused : stateOf message = .error error) : ofMessage message = .error error := by
  unfold ofMessage
  simp only [object, refused, if_true, bind, Except.bind]

end Notification

namespace Controller

open Headroom.Cycle
open Headroom.Notification (Carries)

section

variable {text : String} {message : Json} {name : String} (target : Target)

/-- A state that does not ask for more resources is answered at once. -/
theorem intake_of_state (carried : Carries text message) (object : message.isObject)
    {state : AlarmState} (reported : Notification.stateOf message = .ok (some state))
    (calm : state ≠ .alarm) : intake target text = .error (ignoredReport state) := by
  obtain ⟨n, read, stated⟩ := Notification.ofMessage_of_state object reported
  have quiet : n.asksToScale = false := by
    unfold Notification.asksToScale
    rw [stated]
    cases state with
    | alarm => exact absurd rfl calm
    | _ => rfl
  unfold intake
  rw [carried.ofText, read]
  simp [quiet, stated]

theorem intake_of_refused (carried : Carries text message) (object : message.isObject)
    {error : Error} (refused : Notification.stateOf message = .error error) :
    intake target text = .error (refusedReport error) := by
  unfold intake
  rw [carried.ofText, Notification.ofMessage_of_refused object refused]

/-- Any text but the name of the alarm state is answered at once. -/
theorem intake_of_other (carried : Carries text message)
    (reported : message.member? "NewStateValue" = some (.string name)) (other : name ≠ "ALARM") :
    (∃ state, state.name = name ∧ intake target text = .error (ignoredReport state)) ∨
      ∃ detail, intake target text = .error (refusedReport (.validation detail)) := by
  have object := Json.isObject_of_member? reported
  have named : Notification.text? message "NewStateValue" = some name := by
    simp [Notification.text?, reported, Json.string?]
  rcases Notification.stateOf_of_named named with ⟨state, known, reports⟩ | ⟨detail, refused⟩
  · have spelt := AlarmState.name_ofName? known
    refine .inl ⟨state, spelt, intake_of_state target carried object reports ?_⟩
    intro alarm
    rw [alarm] at spelt
    exact other spelt.symm
  · exact .inr ⟨detail, intake_of_refused target carried object refused⟩

end

/-- What the reported state decides about a message: what its handling reports, the calls
that are made, and the collaborators before and after. -/
structure StateDecides {σ : Type} (text : String) (message state : Json) (report : Report)
    (calls : List Exchange) (before after : σ) : Prop where
  /-- Where a text is given, only the name of the alarm state has calls made. -/
  called : calls ≠ [] → state = .string "ALARM" ∨ state.string? = none
  /-- Any other text is ignored or refused, and nothing changes. -/
  still : ∀ name, state = .string name → name ≠ "ALARM" →
    (calls = [] ∧ after = before) ∧
      ((∃ known, known.name = name ∧ report = ignoredReport known) ∨
        ∃ detail, report = refusedReport (.validation detail))
  /-- What is no text is passed over. -/
  unseen : state.string? = none →
    Notification.ofText text = Notification.ofMessage (message.without "NewStateValue")

/-- Whatever else a message says and however it arrives, the state that it reports decides
whether collaborators are called, as far as that state is a text. -/
theorem state_text_decides {σ : Type} (rules : Rules)
    (perform : σ → (call : Call) → call.Reply × σ) (held : InFlight) (target : Target)
    (world : σ) {text : String} {message state : Json} (carried : Carries text message)
    (reported : message.member? "NewStateValue" = some state) :
    let done := handleBeside rules (recorded perform) held target (world, []) text
    StateDecides text message state done.report done.world.2 world done.world.1 := by
  intro done
  have still : ∀ name, state = .string name → name ≠ "ALARM" →
      (done.world.2 = [] ∧ done.world.1 = world) ∧
        ((∃ known, known.name = name ∧ done.report = ignoredReport known) ∨
          ∃ detail, done.report = refusedReport (.validation detail)) := by
    intro name text other
    subst text
    rcases intake_of_other target carried reported other with
      ⟨known, spelt, answered⟩ | ⟨detail, answered⟩
    · simp only [done, handleBeside, answered]
      exact ⟨⟨trivial, trivial⟩, .inl ⟨known, spelt, rfl⟩⟩
    · simp only [done, handleBeside, answered]
      exact ⟨⟨trivial, trivial⟩, .inr ⟨detail, rfl⟩⟩
  constructor
  case called =>
    intro made
    cases state with
    | string name =>
      by_cases alarm : name = "ALARM"
      · exact .inl (by rw [alarm])
      · exact absurd (still name rfl alarm).1.1 made
    | _ => exact .inr rfl
  case still => exact still
  case unseen =>
    intro unnamed
    rw [carried.ofText]
    apply Notification.ofMessage_without
    simp [Notification.text?, reported, unnamed]

/-- An alarm that went back to normal, its state wrapped in a list. -/
def listedText : String := "\x7b\"AlarmName\":\"memory\",\"NewStateValue\":[\"OK\"]\x7d"

def listedMessage : Json :=
  .object [("AlarmName", .string "memory"), ("NewStateValue", .array [.string "OK"])]

theorem listed_carried : Carries listedText listedMessage := by
  refine ⟨listedMessage, ?_, rfl⟩
  with_unfolding_all rfl

/-- The state is passed over, and the message is a trigger for the configured target. -/
theorem listed_decided :
    (Carries listedText listedMessage ∧
      listedMessage.member? "NewStateValue" = some (.array [.string "OK"])) ∧
    let done := handleBeside {} (recorded Stores.perform) {} Retargeting.mainTarget
      (Retargeting.mainStores, []) listedText
    StateDecides listedText listedMessage (.array [.string "OK"]) done.report done.world.2
      Retargeting.mainStores done.world.1 :=
  ⟨⟨listed_carried, rfl⟩,
    state_text_decides {} Stores.perform {} Retargeting.mainTarget Retargeting.mainStores
      listed_carried rfl⟩

/-- Of the messages that report a state only those that report the alarm state change
anything. -/
def OnlyAlarmsCount (target : Target) (stores : Stores) (text : String) : Prop :=
  ∀ message state, Carries text message → message.member? "NewStateValue" = some state →
    state ≠ .string "ALARM" →
    (handle {} Stores.perform target stores text).world = stores

/-- The message of an alarm that went back to normal has the service scaled up. -/
theorem listed_state_scales :
    ¬ OnlyAlarmsCount Retargeting.mainTarget Retargeting.mainStores listedText ∧
      (handle {} Stores.perform Retargeting.mainTarget Retargeting.mainStores
        listedText).report.outcome.label = "scaled" := by
  have taken : intake Retargeting.mainTarget listedText =
      .ok (.ofTarget Retargeting.mainTarget listedText) := by
    decide +kernel
  have facts : ((Course.start (.ofTarget Retargeting.mainTarget listedText)).runWithin? {}
      Stores.perform 6 Retargeting.mainStores).map
        (fun done => (done.1.bound? "main" "api", done.2.outcome.label)) =
      some (some ⟨"api", 2⟩, "scaled") := by
    decide +kernel
  obtain ⟨⟨last, report⟩, within, facts⟩ := Option.map_eq_some_iff.mp facts
  obtain ⟨moved, label⟩ := Prod.mk.inj facts
  obtain ⟨world, reported⟩ := Course.run_of_runWithin? within
  constructor
  · intro only
    have same := only listedMessage _ listed_carried rfl (by simp)
    rw [handle, taken] at same
    have same : last = Retargeting.mainStores := world.symm.trans same
    have moved : last.bound? "main" "api" = some ⟨"api", 2⟩ := moved
    rw [same] at moved
    exact absurd moved (by decide)
  · rw [handle, taken]
    exact (congrArg (fun r : Report => r.outcome.label) reported).trans label

end Controller
end Headroom
