import Headroom.Proofs.Planning
import Headroom.Proofs.Retargeting
import Headroom.Service.Api

/-!
A service on stores of its own, as its settings seed them. Notifications come one after the
other and ask for the configured target. Whatever the settings, as long as they are valid
and cpu does not follow memory, nothing is refused on the way: a cycle finds its binding, its
plan is registered, and the service and its alarm follow (`seeded_service_in_step`). Only the
sizes that a platform offers may run out. Numbers do not: every registered revision has more
memory than the one before, so a family has no more revisions than there is memory.
-/
namespace Headroom

open Headroom.Cycle

/-- What a registry asks of an allocation. -/
structure Allocation.Registrable (a : Allocation) : Prop where
  family : a.family ≠ ""
  cpu : a.cpu ≠ 0
  memory : a.memory ≠ 0
  limits : ∀ c ∈ a.containers, ∀ limit, c.memory = some limit → limit ≤ a.memory

namespace Allocation.Registrable

variable {a : Allocation}

theorem refusal? (fit : a.Registrable) : Registry.refusal? a = none := by
  unfold Registry.refusal?
  rw [if_neg fit.family, if_neg (by simp [fit.cpu, fit.memory]), List.findSome?_eq_none_iff]
  intro c member
  cases limit : c.memory with
  | none => rfl
  | some limit' =>
    have within := fit.limits c member limit' limit
    simpa using within

theorem renumber (fit : a.Registrable) (number : UInt32) :
    ({ a with number } : Allocation).Registrable :=
  ⟨fit.family, fit.cpu, fit.memory, fit.limits⟩

/-- A container's limit grows no further than its task. -/
theorem grow_limit {more memory : UInt32} {c : Container} {limit : UInt32}
    (grown : (Sizing.Container.grow more memory c).memory = some limit) : limit ≤ memory := by
  obtain ⟨before, -, rfl⟩ := Option.map_eq_some_iff.mp grown
  have least : min (min (before.toNat + more.toNat) (UInt32.size - 1)) memory.toNat ≤
      memory.toNat := Nat.min_le_right _ _
  rw [UInt32.le_iff_toNat_le, Sizing.toNat_toUInt32_of_le least]
  exact least

/-- More memory, and no less cpu, is asked for with limits that fit. -/
theorem resize (fit : a.Registrable) (container : String) {cpu memory : UInt32}
    (kept : a.cpu ≤ cpu) (more : a.memory < memory) :
    (Sizing.resize a container cpu memory).Registrable where
  family := fit.family
  cpu := by
    intro zero
    have none : cpu = 0 := zero
    subst none
    exact fit.cpu (UInt32.le_zero_iff.mp kept)
  memory := by
    intro zero
    have none : memory = 0 := zero
    subst none
    exact UInt32.not_lt_zero more
  limits := by
    intro c member limit limited
    obtain ⟨before, old, rfl⟩ := List.mem_map.mp member
    split at limited
    · exact grow_limit limited
    · exact UInt32.le_trans (fit.limits before old limit limited) (UInt32.le_of_lt more)

end Allocation.Registrable

/-- A plan that was made of what a registry accepts is accepted as well. -/
theorem Sizing.Policy.plan_registrable {p : Policy} (fixed : p.cpuFollowsMemory = false)
    {current candidate : Allocation} {container : String}
    (planned : p.plan current container = .ok (.scaleTo candidate))
    (fit : current.Registrable) : candidate.Registrable := by
  obtain ⟨cpu, memory, sized, more, rfl⟩ := plan_scaleTo planned
  exact fit.resize container (sizes_cpu fixed sized) more

/-- The latest revision of a family can be followed by another one: it is fit to be
registered, and there are no more revisions than it has memory. -/
structure Registry.Stocked (r : Registry) (family : String) (latest : Allocation) : Prop where
  sound : r.Sound
  last : (r.history family).getLast? = some latest
  room : (r.history family).length ≤ latest.memory.toNat
  fit : latest.Registrable

namespace Registry.Stocked

variable {r : Registry} {family : String} {latest : Allocation}

theorem family_eq (stocked : r.Stocked family latest) : latest.family = family :=
  stocked.sound.family (List.mem_of_getLast? stocked.last)

/-- The latest revision is found under its number. -/
theorem revision? (stocked : r.Stocked family latest) :
    r.revision? family latest.number = some latest := by
  have small := latest.memory.toNat_lt
  have room := stocked.room
  exact stocked.sound.revision?_of_mem (by simp only [UInt32.size]; omega)
    (List.mem_of_getLast? stocked.last)

theorem first {a : Allocation} (fit : a.Registrable) :
    (({} : Registry).append a).Stocked a.family { a with number := 1 } where
  sound := Sound.empty.append a
  last := by simp [append_history_self, nextNumber]
  room := by
    have positive : 0 < a.memory.toNat :=
      Nat.pos_of_ne_zero fun zero => fit.memory (UInt32.toNat_inj.mp zero)
    have single : ((({} : Registry).append a).history a.family).length = 1 := by
      simp [append_history_self]
    rw [single]
    exact positive
  fit := fit.renumber 1

/-- Every revision has more memory than the one before. -/
theorem append (stocked : r.Stocked family latest) {candidate : Allocation}
    (own : candidate.family = family) (fit : candidate.Registrable)
    (more : latest.memory < candidate.memory) :
    (r.append candidate).Stocked family
      { candidate with number := r.nextNumber candidate.family } where
  sound := stocked.sound.append candidate
  last := by simp [← own, append_history_self]
  room := by
    have room := stocked.room
    have grows := UInt32.lt_iff_toNat_lt.mp more
    rw [← own] at room
    simp only [← own, append_history_self, List.length_append, List.length_singleton]
    omega
  fit := fit.renumber _

end Registry.Stocked

/-- A service with its alarm, both in step with the latest revision of the family. -/
structure InStep (p : ThresholdPolicy) (target : Target) (s : Stores) (latest : Allocation) :
    Prop where
  stocked : s.registry.Stocked target.family latest
  bound : s.bound? target.cluster target.service = some latest.revision
  alarm : ∃ a, s.monitor.alarm? target.alarm = some a ∧
    a.threshold = p.threshold latest.memory

theorem InStep.running? {p : ThresholdPolicy} {target : Target} {s : Stores}
    {latest : Allocation} (inStep : InStep p target s latest) :
    s.running? target.cluster target.service = some latest := by
  rw [Stores.running?, inStep.bound, Option.bind_some]
  simp only [Allocation.revision, inStep.stocked.family_eq]
  exact inStep.stocked.revision?

/-- What is done is what a store does where it is asked. -/
theorem Stores.Does.performed {s after : Stores} {call : Call} {answer : call.Answer}
    (does : s.Does call answer after)
    (accepted : ∀ candidate, call = .register candidate → Registry.refusal? candidate = none) :
    s.perform call = (.ok answer, after) := by
  cases does with
  | readBinding found => simp [Stores.perform, Fleet.describe, found]
  | readAllocation latest => simp [Stores.perform, Registry.describe, latest]
  | register candidate =>
    simp [Stores.perform, Registry.register, accepted candidate rfl]
  | @rebind cluster service expected bound desired =>
    obtain ⟨b, found, active⟩ := Option.map_eq_some_iff.mp bound
    obtain ⟨error, refused⟩ | ⟨-, moved⟩ := s.fleet.rebind_cases cluster service expected desired
    · simp [Fleet.rebind, found, active] at refused
    · simp [Stores.perform, moved]
  | @patchAlarm name there threshold =>
    obtain ⟨a, found⟩ := Option.isSome_iff_exists.mp there
    obtain ⟨error, refused⟩ | ⟨-, patched⟩ := s.monitor.patchAlarm_cases name threshold
    · simp [Monitor.patchAlarm, found] at refused
    · simp [Stores.perform, patched]

/-- The request is about the configured target and its alarm. -/
structure Request.IsPlain (r : Request) (target : Target) : Prop where
  about : r.IsFor target
  alarm : r.alarm = target.alarm

namespace Cycle

/-- How a cycle for the configured target stands to the stores, where nothing is refused. -/
inductive Stage.Unhindered (rules : Rules) (target : Target) (s : Stores) : Stage → Prop where
  | readBinding {latest : Allocation} (inStep : InStep rules.thresholds target s latest) :
      Unhindered rules target s .readBinding
  | readAllocation {latest : Allocation} (inStep : InStep rules.thresholds target s latest) :
      Unhindered rules target s (.readAllocation latest.revision)
  | confirmBinding {latest candidate : Allocation}
      (inStep : InStep rules.thresholds target s latest) (own : candidate.family = target.family)
      (fit : candidate.Registrable) (more : latest.memory < candidate.memory) :
      Unhindered rules target s (.confirmBinding latest.revision candidate)
  | register {latest candidate : Allocation}
      (inStep : InStep rules.thresholds target s latest) (own : candidate.family = target.family)
      (fit : candidate.Registrable) (more : latest.memory < candidate.memory) :
      Unhindered rules target s (.register latest.revision candidate)
  | rebind {latest : Allocation} {expected : Revision}
      (stocked : s.registry.Stocked target.family latest)
      (bound : s.bound? target.cluster target.service = some expected)
      (alarm : (s.monitor.alarm? target.alarm).isSome) :
      Unhindered rules target s (.rebind expected latest.revision latest.memory)
  | adjustAlarm {latest : Allocation} (expected : Revision)
      (stocked : s.registry.Stocked target.family latest)
      (bound : s.bound? target.cluster target.service = some latest.revision)
      (alarm : (s.monitor.alarm? target.alarm).isSome) :
      Unhindered rules target s (.adjustAlarm expected latest.revision latest.memory
        (rules.thresholds.threshold latest.memory))

/-- What a notification may come to where nothing is refused. -/
inductive Outcome.Unhindered (platform : Sizing.Platform) : Outcome → Prop where
  | ignored (state : AlarmState) : Unhindered platform (.ignored state)
  | scaled (previous new : Revision) (memory : UInt32) (alarm : String) (threshold : Float) :
      Unhindered platform (.scaled previous new memory (.patched alarm threshold))
  | saturated (current : Revision) (memory ceiling : UInt32) :
      Unhindered platform (.saturated current memory ceiling)
  | unoffered (fargate : platform = .fargate) (detail : String) :
      Unhindered platform (.failed .computing (.validation detail) none)

/-- A report of what may come, with the service and its alarm in step. -/
def Outcome.LeftInStep (rules : Rules) (target : Target) (s : Stores) (outcome : Outcome) : Prop :=
  outcome.Unhindered rules.sizing.platform ∧ ∃ latest, InStep rules.thresholds target s latest

section

variable {rules : Rules} {target : Target} {r : Request} {s : Stores} {stage : Stage}

/-- Each call of an unhindered cycle is done, and leads on unhindered. -/
theorem Stage.Unhindered.advances (unhindered : stage.Unhindered rules target s)
    (plain : r.IsPlain target) (valid : rules.sizing.validate = .ok ())
    (fixed : rules.sizing.cpuFollowsMemory = false) :
    ∃ answer after, s.perform (stage.call r) = (.ok answer, after) ∧
      ∀ next, Advance rules r stage (.ok answer) next →
        next.elim (Stage.Unhindered rules target after)
          (Outcome.LeftInStep rules target after) := by
  obtain ⟨⟨cluster, service, -, family⟩, alarm⟩ := plain
  cases unhindered with
  | @readBinding latest inStep =>
    obtain ⟨b, found, active⟩ := Option.map_eq_some_iff.mp inStep.bound
    have does : s.Does (.describeBinding r.cluster r.service) b s :=
      .readBinding (by rw [cluster, service]; exact found)
    refine ⟨b, s, does.performed (by simp), fun next advance => ?_⟩
    cases advance with
    | bindingRead =>
      show Stage.Unhindered rules target s (.readAllocation b.active)
      rw [active]
      exact .readAllocation inStep
  | @readAllocation latest inStep =>
    have does : s.Does (.describe r.family) latest s :=
      .readAllocation (by rw [family]; exact inStep.stocked.last)
    refine ⟨latest, s, does.performed (by simp), fun next advance => ?_⟩
    cases advance with
    | planned expected plan =>
      exact .confirmBinding inStep
        ((Sizing.Policy.plan_family plan).trans inStep.stocked.family_eq)
        (Sizing.Policy.plan_registrable fixed plan inStep.stocked.fit)
        (Sizing.Policy.plan_memory plan)
    | saturated expected plan => exact ⟨.saturated _ _ _, latest, inStep⟩
    | unplanned expected plan =>
      obtain ⟨fargate, detail, rfl⟩ := Sizing.Policy.plan_error valid plan
      exact ⟨.unoffered fargate detail, latest, inStep⟩
  | @confirmBinding latest candidate inStep own fit more =>
    obtain ⟨b, found, active⟩ := Option.map_eq_some_iff.mp inStep.bound
    have does : s.Does (.describeBinding r.cluster r.service) b s :=
      .readBinding (by rw [cluster, service]; exact found)
    refine ⟨b, s, does.performed (by simp), fun next advance => ?_⟩
    cases advance with
    | confirmed candidate same => exact .register inStep own fit more
    | overtaken candidate detail moved => exact absurd active moved
  | @register latest candidate inStep own fit more =>
    have does := Stores.Does.register (s := s) candidate
    refine ⟨_, _, does.performed (by simpa using fit.refusal?), fun next advance => ?_⟩
    cases advance with
    | registered expected candidate new =>
      obtain ⟨a, found, -⟩ := inStep.alarm
      exact Stage.Unhindered.rebind (s := { s with registry := s.registry.append candidate })
        (inStep.stocked.append own fit more) inStep.bound (by simp [found])
  | @rebind latest expected stocked bound alarmed =>
    have does : s.Does (.rebind r.cluster r.service expected latest.revision) () _ :=
      .rebind (by rw [cluster, service]; exact bound) latest.revision
    refine ⟨(), _, does.performed (by simp), fun next advance => ?_⟩
    cases advance with
    | rebound expected new memory =>
      refine .adjustAlarm expected stocked ?_ alarmed
      rw [cluster, service]
      exact Fleet.bound?_moved_self bound latest.revision
  | @adjustAlarm latest expected stocked bound alarmed =>
    have does : s.Does (.patchAlarm r.alarm (rules.thresholds.threshold latest.memory)) () _ :=
      .patchAlarm (by rw [alarm]; exact alarmed) _
    refine ⟨(), _, does.performed (by simp), fun next advance => ?_⟩
    cases advance with
    | adjusted expected new memory threshold =>
      refine ⟨.scaled _ _ _ _ _, latest, stocked, bound, ?_⟩
      rw [alarm]
      exact Monitor.alarm?_patched_self alarmed _

/-- What holds of a cycle on stores that refuse nothing. -/
def Standing.Unhindered (rules : Rules) (target : Target) (r : Request) (s : Stores) :
    Standing → Prop
  | .due c => c.request = r ∧ c.stage.Unhindered rules target s
  | .ended report => report.outcome.LeftInStep rules target s

/-- A call and its reply leave a cycle unhindered. -/
theorem Course.unhindered_step (plain : r.IsPlain target)
    (valid : rules.sizing.validate = .ok ()) (fixed : rules.sizing.cpuFollowsMemory = false)
    (s : Stores) (c : Course) (unhindered : (Standing.due c).Unhindered rules target r s) :
    (c.answer rules (s.perform c.call).1).next.standing.Unhindered rules target r
      (s.perform c.call).2 := by
  obtain ⟨rfl, unhindered⟩ := unhindered
  obtain ⟨answer, after, performed, leads⟩ := unhindered.advances plain valid fixed
  rw [performed]
  apply c.answer_cases rules (.ok answer)
  · intro detail failed
    cases failed
  · intro stage path advance _
    exact ⟨rfl, leads _ advance⟩
  · intro outcome path advance _
    exact leads _ advance

end

end Cycle

namespace Controller

variable {rules : Rules} {target : Target}

/-- A text is a notification, which asks for the configured target if for anything, and for
no other alarm. -/
def Plain (target : Target) (text : String) : Prop :=
  ∃ n, Notification.ofText text = .ok n ∧ n.retargets target = false ∧
    Notification.differs n.alarm target.alarm = false

/-- A plain notification is ignored, or makes a request for the configured target. -/
theorem intake_plain {text : String} (plain : Plain target text) :
    (∃ state, intake target text = .error (ignoredReport state)) ∨
      ∃ r, intake target text = .ok r ∧ r.IsPlain target := by
  obtain ⟨n, read, here, watched⟩ := plain
  unfold intake
  rw [read]
  dsimp only
  cases n.asksToScale with
  | false => exact .inl ⟨_, rfl⟩
  | true =>
    cases requested : n.request target text with
    | error error =>
      simp [Notification.request, here] at requested
    | ok r =>
      obtain ⟨alarm, about⟩ := Notification.request_ok requested
      refine .inr ⟨r, rfl, ?_, ?_⟩
      · rcases about with about | ⟨-, elsewhere⟩
        · exact about
        · simp [here] at elsewhere
      · rw [alarm]
        exact Notification.getD_of_not_differs watched

/-- Handling a plain notification leaves the service and its alarm in step. -/
theorem handle_plain (valid : rules.sizing.validate = .ok ())
    (fixed : rules.sizing.cpuFollowsMemory = false) {s : Stores} {latest : Allocation}
    (inStep : InStep rules.thresholds target s latest) {text : String}
    (plain : Plain target text) :
    (handle rules Stores.perform target s text).report.outcome.LeftInStep rules target
      (handle rules Stores.perform target s text).world := by
  unfold handle
  obtain ⟨state, answered⟩ | ⟨r, taken, about⟩ := intake_plain plain
  · rw [answered]
    exact ⟨.ignored state, latest, inStep⟩
  · rw [taken]
    exact Course.run_keeps (P := fun s standing => standing.Unhindered rules target r s)
      (Course.unhindered_step about valid fixed) s (Course.start r) ⟨rfl, .readBinding inStep⟩

end Controller

namespace Service

/-- What validation makes sure of. -/
structure Settings.Valid (s : Settings) : Prop where
  family : s.family ≠ ""
  cpu : s.seed.cpu ≠ 0
  memory : s.seed.memory ≠ 0
  sizing : s.sizing.validate = .ok ()

theorem Settings.valid {s : Settings} (validated : s.validate = .ok ()) : s.Valid := by
  unfold validate at validated
  simp only [bind, Except.bind, throw, throwThe, MonadExceptOf.throw] at validated
  split at validated
  · cases validated
  rename_i named
  split at validated
  · cases validated
  split at validated
  · cases validated
  split at validated
  · cases validated
  rename_i seeded
  split at validated
  · cases validated
  rename_i sized
  constructor
  case family =>
    intro empty
    have blank := List.find?_eq_none.mp named ("family", s.family) (by simp [names])
    rw [empty] at blank
    exact absurd (by decide) blank
  case cpu => exact fun zero => seeded (.inl zero)
  case memory => exact fun zero => seeded (.inr zero)
  case sizing =>
    cases sizing : s.sizing.validate with
    | ok _ => rfl
    | error error => simp [sizing, Except.mapError] at sized

/-- The stores begin with the service in step. -/
theorem Settings.stores_inStep {s : Settings} (valid : s.Valid) :
    InStep s.thresholds s.target s.stores s.seedAllocation where
  stocked := by
    have fit : s.seedAllocation.Registrable :=
      { family := valid.family
        cpu := valid.cpu
        memory := valid.memory
        limits := by
          intro c member limit limited
          obtain rfl := List.mem_singleton.mp member
          obtain rfl := Option.some.inj limited
          exact UInt32.le_refl _ }
    exact Registry.Stocked.first fit
  bound := by
    simp [stores, Stores.bound?, Fleet.bound?, Fleet.insert, Registry.seed, Registry.nextNumber,
      Allocation.revision, seedAllocation]
  alarm := by
    refine ⟨s.seedAlarm, ?_, rfl⟩
    simp [stores, Monitor.insert, seedAlarm]

namespace State

variable {σ : Type} (c : Collaborators σ)

/-- Handle a notification: its report, and the service afterwards. -/
def notify (s : State σ) (text : String) : Report × State σ :=
  let finished := Controller.handle s.rules c.perform s.pipeline.target s.world text
  (finished.report,
    { s with
      health := s.health.recordCycle finished.report.outcome
      world := finished.world })

/-- Handle notifications one after the other. -/
def notifyAll (s : State σ) : List String → List (Report × State σ)
  | [] => []
  | text :: rest => s.notify c text :: (s.notify c text).2.notifyAll rest

/-- A notification comes in as the body of a post, and its report goes out as the answer. -/
theorem respond_notification (s : State σ) {q : Incoming} {text : String}
    (route : Route.ofTarget? q.target = some .notifications) (posted : q.method = "POST")
    (short : q.body.length ≤ bodyLimit) (read : String.fromUTF8? ⟨q.body.toArray⟩ = some text) :
    s.respond c q =
      (some ⟨cycleStatus (s.notify c text).1,
          some (CycleAnswer.ofReport (s.notify c text).1).toJson⟩,
        (s.notify c text).2) := by
  have taken : q.method ∈ Route.notifications.methods := by
    rw [posted]
    decide
  unfold respond
  simp only [route, taken, not_true_eq_false, if_false]
  unfold postNotification
  rw [if_neg (Nat.not_lt.mpr short), read]
  rfl

variable {c}

/-- A service that is in step stays so, notification after notification. -/
theorem notifyAll_inStep {s : State Stores} {texts : List String} {latest : Allocation}
    (valid : s.rules.sizing.validate = .ok ())
    (fixed : s.rules.sizing.cpuFollowsMemory = false)
    (inStep : InStep s.rules.thresholds s.pipeline.target s.world latest)
    (plain : ∀ text ∈ texts, Controller.Plain s.pipeline.target text) :
    ∀ done ∈ s.notifyAll .stores texts,
      done.1.outcome.LeftInStep s.rules s.pipeline.target done.2.world := by
  induction texts generalizing s latest with
  | nil => simp [notifyAll]
  | cons text rest ih =>
    have first : (s.notify .stores text).1.outcome.LeftInStep s.rules s.pipeline.target
        (s.notify .stores text).2.world :=
      Controller.handle_plain valid fixed inStep (plain text List.mem_cons_self)
    intro done member
    rcases List.mem_cons.mp member with rfl | later
    · exact first
    · obtain ⟨next, inStep⟩ := first.2
      exact ih (s := (s.notify .stores text).2) valid fixed inStep
        (fun text member => plain text (List.mem_cons_of_mem _ member)) done later

end State

/-- Whatever valid settings a service on its own stores is made of, as long as cpu does not
follow memory, and whatever plain notifications it is handed one after the other: every one
comes to what may be expected, and leaves the service bound to the latest revision of its
family, and the alarm set for the memory of that. -/
theorem seeded_service_in_step (settings : Settings) (health : Health) (texts : List String)
    (validated : settings.validate = .ok ())
    (fixed : settings.sizing.cpuFollowsMemory = false)
    (plain : ∀ text ∈ texts, Controller.Plain settings.target text) :
    let target := settings.target
    ∀ done ∈ (State.ofSettings settings health settings.stores).notifyAll .stores texts,
      done.1.outcome.Unhindered settings.sizing.platform ∧
        done.2.world.BoundToLatest target.cluster target.service target.family ∧
        ∃ running alarm,
          done.2.world.running? target.cluster target.service = some running ∧
          done.2.world.monitor.alarm? target.alarm = some alarm ∧
          alarm.threshold = running.memory.toFloat * settings.thresholds.ratio := by
  intro target done member
  have valid := settings.valid validated
  obtain ⟨expected, latest, inStep⟩ := State.notifyAll_inStep
    (s := State.ofSettings settings health settings.stores) valid.sizing fixed
    (Settings.stores_inStep valid) plain done member
  obtain ⟨alarm, found, set⟩ := inStep.alarm
  exact ⟨expected, ⟨latest, inStep.stocked.last, inStep.bound⟩, latest, alarm, inStep.running?,
    found, set⟩

/-- A service that names its alarm after itself. -/
def plainSettings : Settings :=
  { cluster := "main", service := "api", container := "api", family := "api" }

/-- A trigger for the configured cluster, and the alarm of the service going off. -/
def plainTexts : List String :=
  ["\x7b\"clusterName\":\"main\"\x7d",
    "\x7b\"AlarmName\":\"api-memory-high\",\"NewStateValue\":\"ALARM\"\x7d"]

theorem plainTexts_plain : ∀ text ∈ plainTexts, Controller.Plain plainSettings.target text := by
  intro text member
  rcases List.mem_cons.mp member with rfl | later
  · exact ⟨{ cluster := some "main" }, by decide +kernel, by decide, by decide⟩
  · obtain rfl := List.mem_singleton.mp later
    exact ⟨{ alarm := some "api-memory-high", state := some .alarm }, by decide +kernel,
      by decide, by decide⟩

/-- The service of these settings stays in step with what it is told. -/
theorem plain_service_in_step :
    (plainSettings.validate = .ok () ∧ plainSettings.sizing.cpuFollowsMemory = false ∧
      ∀ text ∈ plainTexts, Controller.Plain plainSettings.target text) ∧
    ∀ done ∈ (State.ofSettings plainSettings Health.initial plainSettings.stores).notifyAll .stores
      plainTexts,
      done.1.outcome.Unhindered .unconstrained ∧
        done.2.world.BoundToLatest "main" "api" "api" ∧
        ∃ running alarm, done.2.world.running? "main" "api" = some running ∧
          done.2.world.monitor.alarm? "api-memory-high" = some alarm ∧
          alarm.threshold = running.memory.toFloat * ({} : ThresholdPolicy).ratio := by
  have validated : plainSettings.validate = .ok () := by decide +kernel
  exact ⟨⟨validated, rfl, plainTexts_plain⟩,
    seeded_service_in_step plainSettings Health.initial plainTexts validated rfl plainTexts_plain⟩

end Service

end Headroom
