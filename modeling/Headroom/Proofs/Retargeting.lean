import Headroom.Proofs.CallOrder
import Headroom.Proofs.Effects
import Headroom.Proofs.Provenance

/-!
Which notifications have the configured alarm set, and what for. Notifications are
handled one after the other, over stores whose calls may fail or go unanswered. Every
threshold that the configured alarm is given is for memory that the cycle in question
registered for its own service (`configured_alarm_kept`). That is the configured service
as long as nobody names another one together with the configured alarm: a notification
for another target has to name an alarm, and the configured one is not ruled out
(`stray_sets_configured_alarm`).
-/
namespace Headroom

open Headroom.Cycle

/-- The request is about the configured target. -/
structure Request.IsFor (r : Request) (target : Target) : Prop where
  cluster : r.cluster = target.cluster
  service : r.service = target.service
  container : r.container = target.container
  family : r.family = target.family

namespace Notification

theorem getD_of_not_differs {given : Option String} {configured : String}
    (same : differs given configured = false) : given.getD configured = configured := by
  cases given with
  | none => rfl
  | some name => simpa [differs] using same

/-- A request is about the configured target, unless its notification named another one
and an alarm. -/
theorem request_ok {n : Notification} {target : Target} {text : String} {r : Request}
    (requested : n.request target text = .ok r) :
    r.alarm = n.alarm.getD target.alarm ∧
      (r.IsFor target ∨ n.alarm.isSome ∧ n.retargets target) := by
  unfold request at requested
  split at requested
  · cases requested
  · rename_i allowed
    obtain rfl := Except.ok.inj requested
    refine ⟨rfl, ?_⟩
    by_cases elsewhere : n.retargets target
    · refine .inr ⟨?_, elsewhere⟩
      cases named : n.alarm with
      | none => simp [named, elsewhere] at allowed
      | some alarm => rfl
    · simp only [retargets, Bool.or_eq_true, not_or, Bool.not_eq_true] at elsewhere
      obtain ⟨⟨⟨cluster, service⟩, container⟩, family⟩ := elsewhere
      exact .inl ⟨getD_of_not_differs cluster, getD_of_not_differs service,
        getD_of_not_differs container, getD_of_not_differs family⟩

end Notification

theorem Controller.intake_ok {target : Target} {text : String} {r : Request}
    (taken : intake target text = .ok r) :
    ∃ n, Notification.ofText text = .ok n ∧ n.request target text = .ok r := by
  unfold intake at taken
  split at taken
  · cases taken
  · rename_i n read
    split at taken
    · split at taken
      · obtain rfl := Except.ok.inj taken
        exact ⟨n, read, ‹_›⟩
      · cases taken
    · cases taken

namespace Retargeting

/-- A notification that was handled, with the calls that were made for it. -/
structure Handled where
  text : String
  calls : List Exchange
  report : Report

section

variable {σ : Type} (rules : Rules) (perform : σ → (call : Call) → call.Reply × σ)
  (target : Target)

/-- The calls that are made for a notification. -/
def callsFor (world : σ) (text : String) : List Exchange :=
  (Controller.handle rules (recorded perform) target (world, []) text).world.2

/-- Handle notifications one after the other. -/
def handleAll (world : σ) : List String → List Handled × σ
  | [] => ([], world)
  | text :: rest =>
    let done := Controller.handle rules perform target world text
    let later := handleAll done.world rest
    (⟨text, callsFor rules perform target world text, done.report⟩ :: later.1, later.2)

/-- Noting the calls does not change what becomes of a notification. -/
theorem handle_recorded (world : σ) (text : String) :
    (Controller.handle rules (recorded perform) target (world, []) text).world.1 =
      (Controller.handle rules perform target world text).world := by
  unfold Controller.handle
  split
  · exact congrArg Course.Finished.world (serve_recorded rules perform world _)
  · rfl

/-- Calls are made for a request only, and they lead to the report. -/
theorem callsFor_follows (world : σ) (text : String) :
    callsFor rules perform target world text = [] ∨
      ∃ r report, Controller.intake target text = .ok r ∧
        Follows rules r (callsFor rules perform target world text) (.ended report) := by
  unfold callsFor Controller.handle
  split
  · rename_i r taken
    exact .inr ⟨r, _, taken, Course.run_follows rules perform world r⟩
  · exact .inl rfl

end

/-- Why the configured alarm is given a threshold: a notification made a request with
that alarm, and the threshold is for what was registered for the request's service. -/
structure Warrant (rules : Rules) (target : Target) (text : String) (calls : List Exchange)
    (threshold : Float) (n : Notification) (r : Request) : Prop where
  read : Notification.ofText text = .ok n
  requested : n.request target text = .ok r
  alarm : r.alarm = target.alarm
  capacity : ∃ expected new memory, Offered rules r calls expected new memory ∧
    threshold = rules.thresholds.threshold memory
  /-- It is the configured service, unless the notification named another one and, at the
  same time, the configured alarm. -/
  own : r.IsFor target ∨ n.alarm = some target.alarm ∧ n.retargets target

theorem warrant_of_patch {σ : Type} {rules : Rules}
    {perform : σ → (call : Call) → call.Reply × σ} {target : Target} {world : σ} {text : String}
    {x : Exchange} (made : x ∈ callsFor rules perform target world text) {threshold : Float}
    (patch : x.call = .patchAlarm target.alarm threshold) :
    ∃ n r, Warrant rules target text (callsFor rules perform target world text) threshold n r := by
  rcases callsFor_follows rules perform target world text with none | ⟨r, report, taken, follows⟩
  · rw [none] at made
    cases made
  · obtain ⟨n, read, requested⟩ := Controller.intake_ok taken
    obtain ⟨named, capacity⟩ := follows.patches x made _ _ patch
    obtain ⟨alarm, own⟩ := Notification.request_ok requested
    refine ⟨n, r, read, requested, named.symm, capacity, ?_⟩
    rcases own with here | ⟨given, elsewhere⟩
    · exact .inl here
    · obtain ⟨name, found⟩ := Option.isSome_iff_exists.mp given
      rw [found, Option.getD_some] at alarm
      exact .inr ⟨by rw [found, named, alarm], elsewhere⟩

/-- Make a call that the next of the listed faults befalls, if any is left. -/
def attemptNext (w : Stores × List Fault) (call : Call) : call.Reply × (Stores × List Fault) :=
  let made := w.1.attempt call (w.2.headD .none)
  (made.1, made.2, w.2.tail)

/-- An alarm is as it was first, or one of the calls asked for its threshold. -/
def AskedFor (first last : Stores) (name : String) (calls : List Exchange) : Prop :=
  ∀ a, last.monitor.alarm? name = some a → first.monitor.alarm? name = some a ∨
    ∃ x ∈ calls, x.call = .patchAlarm name a.threshold

theorem AskedFor.call {first last after : Stores} {name : String} {calls : List Exchange}
    (asked : AskedFor first last name calls) {call : Call} {fault : Fault} {reply : call.Reply}
    (attempted : last.Attempted call fault reply after) :
    AskedFor first after name (calls ++ [⟨call, reply⟩]) := by
  intro a found
  rcases attempted.patches name with same | ⟨threshold, patch, b, now, exactly⟩
  · rcases asked a (same.symm.trans found) with initial | ⟨x, made, patch⟩
    · exact .inl initial
    · exact .inr ⟨x, List.mem_append_left _ made, patch⟩
  · obtain rfl := Option.some.inj (now.symm.trans found)
    rw [← exactly] at patch
    exact .inr ⟨_, List.mem_append_right _ List.mem_cons_self, patch⟩

theorem handle_askedFor (rules : Rules) (target : Target) (world : Stores × List Fault)
    (text name : String) :
    AskedFor world.1 (Controller.handle rules attemptNext target world text).world.1 name
      (callsFor rules attemptNext target world text) := by
  rw [← handle_recorded]
  unfold callsFor Controller.handle
  split
  · rename_i r taken
    exact Course.run_keeps
      (P := fun (w : (Stores × List Fault) × List Exchange) _ => AskedFor world.1 w.1.1 name w.2)
      (fun w c asked => asked.call (Stores.attempted rfl)) (world, []) (Course.start r)
      fun a found => .inl found
  · exact fun a found => .inl found

/-- What becomes of the configured alarm while notifications are handled. -/
structure AlarmKept (rules : Rules) (target : Target) (first last : Stores)
    (handled : List Handled) : Prop where
  /-- Every call for it has its warrant. -/
  patches : ∀ h ∈ handled, ∀ x ∈ h.calls, ∀ threshold,
    x.call = .patchAlarm target.alarm threshold →
    ∃ n r, Warrant rules target h.text h.calls threshold n r
  /-- Its threshold is the first one, or has a warrant. -/
  threshold : ∀ a, last.monitor.alarm? target.alarm = some a →
    first.monitor.alarm? target.alarm = some a ∨
      ∃ h ∈ handled, ∃ n r, Warrant rules target h.text h.calls a.threshold n r

/-- Whatever the notifications say, whatever the stores hold, and whatever befalls the
calls, the configured alarm is only set for memory that was registered for the service
of a request with that alarm. -/
theorem configured_alarm_kept (rules : Rules) (target : Target) (stores : Stores)
    (faults : List Fault) (texts : List String) :
    let done := handleAll rules attemptNext target (stores, faults) texts
    AlarmKept rules target stores done.2.1 done.1 := by
  induction texts generalizing stores faults with
  | nil =>
    constructor
    · exact fun h member => by cases member
    · exact fun a found => .inl found
  | cons text rest ih =>
    obtain ⟨patches, threshold⟩ :=
      ih (Controller.handle rules attemptNext target (stores, faults) text).world.1
        (Controller.handle rules attemptNext target (stores, faults) text).world.2
    constructor
    case patches =>
      intro h member x made threshold patch
      rcases List.mem_cons.mp member with rfl | later
      · exact warrant_of_patch made patch
      · exact patches h later x made threshold patch
    case threshold =>
      intro a found
      rcases threshold a found with before | ⟨h, later, warrant⟩
      · rcases handle_askedFor rules target (stores, faults) text target.alarm a before with
          initial | ⟨x, made, patch⟩
        · exact .inl initial
        · exact .inr ⟨_, List.mem_cons_self, warrant_of_patch made patch⟩
      · exact .inr ⟨h, List.mem_cons_of_mem _ later, warrant⟩

/-- A service with its alarm, beside a larger service. -/
def mainTarget : Target :=
  { cluster := "main", service := "api", container := "api", family := "api"
    metricNamespace := "metrics", alarm := "memory" }

def mainStores : Stores where
  registry := (({} : Registry).append
      { family := "api", number := 0, cpu := 256, memory := 512 }).append
    { family := "batch", number := 0, cpu := 256, memory := 2048 }
  fleet := (({} : Fleet).insert
    { cluster := "main", service := "api", container := "api", active := ⟨"api", 1⟩ }).insert
    { cluster := "main", service := "batch", container := "batch", active := ⟨"batch", 1⟩ }
  monitor := ({} : Monitor).insert
    { name := "memory", metric := .memoryUtilized, metricNamespace := "metrics", dimensions := []
      comparison := .greater, threshold := ({} : ThresholdPolicy).threshold 512 }

/-- The larger service is named, and the alarm of the other one. -/
def strayText : String :=
  "\x7b\"AlarmName\":\"memory\",\"serviceName\":\"batch\",\"containerName\":\"batch\"," ++
    "\"family\":\"batch\"\x7d"

def strayRequest : Request :=
  { cluster := "main", service := "batch", container := "batch", family := "batch"
    alarm := "memory", notification := strayText }

theorem stray_intake : Controller.intake mainTarget strayText = .ok strayRequest := by
  decide +kernel

/-- The larger service gets 2304 MiB, the alarm is set for that, and the service that it
watches stays at 512 MiB. -/
theorem stray_handled :
    (∃ x ∈ callsFor {} attemptNext mainTarget (mainStores, []) strayText,
      x.call = .patchAlarm "memory" (({} : ThresholdPolicy).threshold 2304)) ∧
    let last := (Controller.handle {} attemptNext mainTarget (mainStores, []) strayText).world.1
    (∃ running, last.running? "main" "api" = some running ∧ running.memory = 512) ∧
      ∃ a, last.monitor.alarm? "memory" = some a ∧
        a.threshold = ({} : ThresholdPolicy).threshold 2304 := by
  have facts : ((Course.start strayRequest).runWithin? {} (recorded attemptNext) 6
      ((mainStores, []), [])).map (fun done => (done.1.2.getLast?.map (·.call),
        (done.1.1.1.running? "main" "api").map (·.memory),
        (done.1.1.1.monitor.alarm? "memory").map (·.threshold))) =
      some (some (.patchAlarm "memory" (({} : ThresholdPolicy).threshold 2304)), some 512,
        some (({} : ThresholdPolicy).threshold 2304)) := by
    decide +kernel
  obtain ⟨⟨w, report⟩, within, facts⟩ := Option.map_eq_some_iff.mp facts
  have handled : (Controller.handle {} (recorded attemptNext) mainTarget
      ((mainStores, []), []) strayText).world = w := by
    unfold Controller.handle
    rw [stray_intake]
    exact (Course.run_of_runWithin? within).1
  rw [← handle_recorded, callsFor, handled]
  simp only [Prod.mk.injEq, Option.map_eq_some_iff] at facts
  obtain ⟨⟨x, last, patch⟩, running, alarm⟩ := facts
  exact ⟨⟨x, List.mem_of_getLast? last, patch⟩, running, alarm⟩

/-- Every cycle that asks for a threshold of the configured alarm is about the configured
target. -/
def OnlyOwnPatches (target : Target) (handled : List Handled) : Prop :=
  ∀ h ∈ handled, ∀ x ∈ h.calls, ∀ threshold, x.call = .patchAlarm target.alarm threshold →
    ∃ r, Controller.intake target h.text = .ok r ∧ r.IsFor target

/-- One notification, nothing fails, and the configured alarm is set for the memory of a
service that it does not watch. -/
theorem stray_sets_configured_alarm :
    let done := handleAll {} attemptNext mainTarget (mainStores, []) [strayText]
    ¬ OnlyOwnPatches mainTarget done.1 ∧
      (∃ running, done.2.1.running? "main" "api" = some running ∧ running.memory = 512) ∧
      ∃ a, done.2.1.monitor.alarm? "memory" = some a ∧
        a.threshold = ({} : ThresholdPolicy).threshold 2304 := by
  obtain ⟨⟨x, made, patch⟩, left⟩ := stray_handled
  refine ⟨fun only => ?_, left⟩
  obtain ⟨r, taken, same⟩ := only _ List.mem_cons_self x made _ patch
  obtain rfl := Except.ok.inj (stray_intake.symm.trans taken)
  exact absurd same.service (by decide)

end Retargeting
end Headroom
