import Headroom.Proofs.Notices
import Headroom.Service.Api
import Mathlib.Logic.Function.Basic

/-!
The health of a service against the history of what came to its notice. Taking in a notice
changes the parts that it has a verdict on and no others (`Shows.note`), so every part is as
the last verdict on it has it. The overall status is read off that history without the
registry (`history_tells_health`), and so is what a cycle that did all that it was to do makes
good, and what it leaves (`success_restores_but_monitor`).
-/
namespace Headroom

theorem Component.mem_all (c : Component) : c ∈ Component.all := by
  cases c <;> decide

namespace Status

theorem worse_eq_unhealthy (a b : Status) :
    worse a b = .unhealthy ↔ a = .unhealthy ∨ b = .unhealthy := by
  cases a <;> cases b <;> decide

theorem worse_eq_healthy (a b : Status) : worse a b = .healthy ↔ a = .healthy ∧ b = .healthy := by
  cases a <;> cases b <;> decide

theorem worse_right_comm (a b c : Status) : worse (worse a b) c = worse (worse a c) b := by
  cases a <;> cases b <;> cases c <;> rfl

theorem worst_eq_unhealthy (first : Status) (rest : List Status) :
    rest.foldl worse first = .unhealthy ↔ .unhealthy ∈ first :: rest := by
  induction rest generalizing first with
  | nil => simp [eq_comm]
  | cons next rest ih =>
    rw [List.foldl_cons, ih, List.mem_cons, eq_comm, worse_eq_unhealthy]
    simp [or_assoc, eq_comm]

theorem worst_eq_healthy (first : Status) (rest : List Status) :
    rest.foldl worse first = .healthy ↔ ∀ status ∈ first :: rest, status = .healthy := by
  induction rest generalizing first with
  | nil => simp
  | cons next rest ih =>
    rw [List.foldl_cons, ih, List.forall_mem_cons, worse_eq_healthy]
    simp [and_assoc]

/-- The worst of some statuses does not depend on their order. -/
theorem worst_perm {statuses others : List Status} (same : statuses.Perm others) :
    statuses.foldl worse .healthy = others.foldl worse .healthy :=
  same.foldl_eq' (fun b _ c _ a => worse_right_comm a b c) .healthy

end Status

namespace Health

/-- Take in a notice. -/
def note (h : Health) : Notice → Health
  | .batch outcome => h.recordBatch outcome
  | .cycle outcome => h.recordCycle outcome
  | .started yes => { h with started := yes }
  | .clock time => { h with clock := time }

/-- Take in notices one after the other. -/
def noteAll (h : Health) (notices : List Notice) : Health := notices.foldl note h

theorem noteAll_append (h : Health) (notices : List Notice) (n : Notice) :
    h.noteAll (notices ++ [n]) = (h.noteAll notices).note n := by
  simp [noteAll]

theorem started_put (h : Health) (name : String) (x : Condition) :
    (h.put name x).started = h.started := by
  simp only [put]
  split <;> rfl

/-- Only a notice of a start bears on whether the service has been started up. -/
theorem started_note (h : Health) (n : Notice) :
    (h.note n).started = match n with | .started yes => yes | _ => h.started := by
  cases n with
  | batch outcome =>
    cases outcome <;> simp [note, recordBatch, setHealthy, setDegraded, started_put]
  | cycle outcome =>
    simp only [note, recordCycle]
    split
    · split <;> simp [setDegraded, setUnhealthy, started_put]
    · simp [setHealthy, setDegraded, started_put]
    · rfl
    · simp [setHealthy, started_put]
  | _ => rfl

theorem started_noteAll (notices : List Notice) :
    (initial.noteAll notices).started = true ↔
      lastOf Notice.isStart notices = some (.started true) := by
  induction notices using List.reverseRecOn with
  | nil => simp [lastOf, show (initial.noteAll []).started = false from rfl]
  | append_singleton notices n ih =>
    rw [noteAll_append, started_note, lastOf_append]
    cases n <;> simp [Notice.isStart, ih]

/-- The status of a part. -/
def status? (h : Health) (c : Component) : Option Status :=
  (h.components.lookup c.name).map (·.status)

/-- The parts of the service are known, each in a condition. -/
def Shows (h : Health) (f : Component → Condition) : Prop :=
  h.components = Component.all.map fun c => (c.name, f c)

namespace Shows

variable {h : Health} {f : Component → Condition}

theorem put (shows : h.Shows f) (c : Component) (x : Condition) :
    (h.put c.name x).Shows (Function.update f c x) := by
  cases c <;> simp_all [Shows, Health.put, Component.all, Component.name, Function.update]

theorem congr {g : Component → Condition} (shows : h.Shows f) (same : ∀ c, f c = g c) :
    h.Shows g := by
  rwa [← funext same]

/-- Taking in a notice changes the parts that it has a verdict on, and nothing else. -/
theorem note (shows : h.Shows f) (n : Notice) :
    (h.note n).Shows fun c => (n.verdict c).getD (f c) := by
  cases n with
  | started yes => exact shows
  | clock time => exact shows
  | batch outcome =>
    cases outcome with
    | published averages =>
      exact ((shows.put .pipeline _).put .metricsBackend _).congr fun c => by cases c <;> rfl
    | publishFailed averages error =>
      exact (shows.put .metricsBackend _).congr fun c => by cases c <;> rfl
    | skipped => exact shows
    | rejected error => exact shows
  | cycle outcome =>
    cases outcome with
    | failed state error orphan =>
      cases error with
      | transient detail =>
        exact ((shows.put .controller _).put .allocationStore _).congr fun c => by cases c <;> rfl
      | _ => exact (shows.put .controller _).congr fun c => by cases c <;> rfl
    | scaled previous new memory alarm =>
      have restored :=
        (shows.put .controller ⟨.healthy, none⟩).put .allocationStore ⟨.healthy, none⟩
      cases alarm with
      | patched alarm threshold => exact restored.congr fun c => by cases c <;> rfl
      | stale alarm threshold error =>
        exact (restored.put .metricsBackend _).congr fun c => by cases c <;> rfl
    | ignored state => exact shows
    | _ =>
      exact ((shows.put .controller _).put .allocationStore _).congr fun c => by cases c <;> rfl

theorem status? (shows : h.Shows f) (c : Component) : h.status? c = some (f c).status := by
  unfold Shows at shows
  cases c <;> simp [Health.status?, shows, Component.all, Component.name, List.lookup_cons]

theorem statuses (shows : h.Shows f) :
    h.components.map (·.2.status) = Component.all.map fun c => (f c).status := by
  rw [show h.components = _ from shows, List.map_map]
  rfl

theorem status_eq_unhealthy (shows : h.Shows f) :
    h.status = .unhealthy ↔ ∃ c, (f c).status = .unhealthy := by
  rw [Health.status, Status.worst_eq_unhealthy, shows.statuses, List.mem_cons, List.mem_map]
  simp [Component.mem_all]

theorem status_eq_healthy (shows : h.Shows f) :
    h.status = .healthy ↔ ∀ c, (f c).status = .healthy := by
  rw [Health.status, Status.worst_eq_healthy, shows.statuses, List.forall_mem_cons,
    List.forall_mem_map]
  simp [Component.mem_all]

end Shows

theorem initial_shows : initial.Shows (shown []) := rfl

theorem noteAll_shows (notices : List Notice) :
    (initial.noteAll notices).Shows (shown notices) := by
  induction notices using List.reverseRecOn with
  | nil => exact initial_shows
  | append_singleton notices n ih =>
    rw [noteAll_append]
    exact (ih.note n).congr fun c => (shown_append notices n c).symm

theorem status?_noteAll (notices : List Notice) (c : Component) :
    (initial.noteAll notices).status? c = some (shown notices c).status :=
  (noteAll_shows notices).status? c

/-- A part goes back to healthy by a notice that mends it. -/
theorem mends_of_restored {notices : List Notice} {n : Notice} {c : Component} {status : Status}
    (before : (initial.noteAll notices).status? c = some status) (ill : status ≠ .healthy)
    (after : ((initial.noteAll notices).note n).status? c = some .healthy) :
    n.mends c = true := by
  have verdict := n.verdict_status c
  rw [← noteAll_append, status?_noteAll, Option.some.injEq, shown_append] at after
  rw [status?_noteAll, Option.some.injEq] at before
  cases given : n.verdict c with
  | none =>
    rw [given] at after
    exact absurd (before.symm.trans after) ill
  | some condition =>
    rw [given] at after
    have healthy : condition.status = .healthy := after
    rw [given, Option.map_some, healthy] at verdict
    split at verdict
    · exact absurd (Option.some.inj verdict).symm c.harmed_ne_healthy
    · split at verdict
      · assumption
      · cases verdict

/-- Only the allocation store is ever unhealthy. -/
theorem status_eq_unhealthy_iff (notices : List Notice) :
    (initial.noteAll notices).status = .unhealthy ↔
      Stands Notice.isOutage Notice.clears notices := by
  have store := shown_eq_harmed_iff notices .allocationStore
  rw [(noteAll_shows notices).status_eq_unhealthy]
  constructor
  · rintro ⟨c, status⟩
    obtain healthy | harmed := shown_cases notices c
    · rw [healthy] at status
      cases status
    · cases c with
      | allocationStore => exact store.mp status
      | _ =>
        rw [harmed] at status
        cases status
  · exact fun stands => ⟨.allocationStore, store.mpr stands⟩

theorem status_eq_healthy_iff (notices : List Notice) :
    (initial.noteAll notices).status = .healthy ↔
      ¬ Stands Notice.isOutage Notice.clears notices ∧ ¬ Stands Notice.fails Notice.clears notices ∧
        ¬ Stands Notice.faultsMonitor Notice.isPublished notices := by
  rw [(noteAll_shows notices).status_eq_healthy]
  constructor
  · intro healthy
    have well c := (shown_eq_healthy_iff notices c).mp (healthy c)
    exact ⟨well .allocationStore, well .controller, well .metricsBackend⟩
  · rintro ⟨store, controller, monitor⟩ c
    cases c with
    | pipeline => exact shown_pipeline notices
    | controller => exact (shown_eq_healthy_iff notices .controller).mpr controller
    | allocationStore => exact (shown_eq_healthy_iff notices .allocationStore).mpr store
    | metricsBackend => exact (shown_eq_healthy_iff notices .metricsBackend).mpr monitor

theorem status_eq_degraded_iff (notices : List Notice) :
    (initial.noteAll notices).status = .degraded ↔
      ¬ Stands Notice.isOutage Notice.clears notices ∧
        (Stands Notice.fails Notice.clears notices ∨
          Stands Notice.faultsMonitor Notice.isPublished notices) := by
  have unhealthy := status_eq_unhealthy_iff notices
  have healthy := status_eq_healthy_iff notices
  cases status : (initial.noteAll notices).status with
  | healthy =>
    obtain ⟨-, controller, monitor⟩ := healthy.mp status
    exact iff_of_false (by decide) fun ill => ill.2.elim controller monitor
  | degraded =>
    have store : ¬ Stands Notice.isOutage Notice.clears notices := by
      rw [← unhealthy, status]
      decide
    have ill := mt healthy.mpr (by rw [status]; decide)
    exact iff_of_true rfl ⟨store, by tauto⟩
  | unhealthy => exact iff_of_false (by decide) fun ill => ill.1 (unhealthy.mp status)

/-- What the health of a service tells after some notices. -/
structure Tells (h : Health) (notices : List Notice) : Prop where
  parts : h.components.map (·.1) = Component.all.map Component.name
  pipeline : h.status? .pipeline = some .healthy
  controller : h.status? .controller = some .healthy ∨ h.status? .controller = some .degraded
  allocationStore :
    h.status? .allocationStore = some .healthy ∨ h.status? .allocationStore = some .unhealthy
  metricsBackend :
    h.status? .metricsBackend = some .healthy ∨ h.status? .metricsBackend = some .degraded
  /-- The service is unhealthy just when some cycle has failed on a transient error and none
  has been scaled, saturated or superseded since. -/
  unhealthy : h.status = .unhealthy ↔ Stands Notice.isOutage Notice.clears notices
  /-- It is degraded just when it is not unhealthy, and the last cycle that was not ignored
  failed or the last thing asked of the metrics backend went wrong. -/
  degraded : h.status = .degraded ↔
    ¬ Stands Notice.isOutage Notice.clears notices ∧
      ((∃ n, lastOf (fun n => n.fails || n.clears) notices = some n ∧ n.fails = true) ∨
        ∃ n, lastOf (fun n => n.faultsMonitor || n.isPublished) notices = some n ∧
          n.isPublished = false)
  /-- The parts may be looked at in any order. -/
  anyOrder : ∀ components : List (String × Condition), components.Perm h.components →
    (components.map (·.2.status)).foldl Status.worse .healthy = h.status
  /-- A service in this health answers so when asked for it. -/
  healthAnswer : ∀ {σ : Type} (s : Service.State σ), s.health = h →
    (s.tell .health).status =
      if h.status = .unhealthy then 503 else 200
  readinessAnswer : ∀ {σ : Type} (s : Service.State σ), s.health = h →
    (s.tell .readiness).status =
      if lastOf Notice.isStart notices = some (.started true) ∧ h.status ≠ .unhealthy then 200
      else 503

/-- Whatever batches and cycles came to, in any order: the health of the service is what the
last of them say about each part. -/
theorem history_tells_health (notices : List Notice) :
    (initial.noteAll notices).Tells notices := by
  have shows := noteAll_shows notices
  have status c := shows.status? c
  constructor
  case parts =>
    rw [show (initial.noteAll notices).components = _ from shows, List.map_map]
    rfl
  case pipeline => rw [status, shown_pipeline]
  case controller =>
    rw [status]
    exact (shown_cases notices .controller).imp (congrArg some) (congrArg some)
  case allocationStore =>
    rw [status]
    exact (shown_cases notices .allocationStore).imp (congrArg some) (congrArg some)
  case metricsBackend =>
    rw [status]
    exact (shown_cases notices .metricsBackend).imp (congrArg some) (congrArg some)
  case unhealthy => exact status_eq_unhealthy_iff notices
  case degraded =>
    have controller : Stands Notice.fails Notice.clears notices ↔ _ := stands_iff_lastOf notices
    have monitor : Stands Notice.faultsMonitor Notice.isPublished notices ↔ _ :=
      stands_iff_lastOf notices
    rw [status_eq_degraded_iff, controller, monitor]
    refine and_congr_right' (or_congr_right (exists_congr fun n => and_congr_right fun last => ?_))
    have kind := kind_of_lastOf last
    constructor
    · exact Notice.isPublished_of_faultsMonitor
    · intro unpublished
      simpa [unpublished] using kind
  case anyOrder => exact fun components same => Status.worst_perm (same.map _)
  case healthAnswer =>
    intro σ s here
    rw [← here]
    cases health : s.health.status <;> simp [Service.State.tell, Status.isOperational, health]
  case readinessAnswer =>
    intro σ s here
    have started := started_noteAll notices
    rw [← here] at started ⊢
    simp only [← started]
    cases begun : s.health.started <;> cases health : s.health.status <;>
      simp [Service.State.tell, Service.ReadinessAnswer.ofHealth, hindrance?, Status.isOperational,
        begun, health]

/-- The last notice with a verdict on a part. -/
def lastOn (c : Component) (notices : List Notice) : Option Notice :=
  lastOf (fun n => (n.verdict c).isSome) notices

/-- What harmed a part stands while the last verdict on the part is that it was harmed. -/
theorem stands_iff_lastOn (notices : List Notice) (c : Component) :
    Stands (·.harms c) (·.mends c) notices ↔
      ∃ n, lastOn c notices = some n ∧ n.harms c = true := by
  have kinds : (fun n : Notice => (n.verdict c).isSome) = fun n => n.harms c || n.mends c :=
    funext fun n => n.isSome_verdict c
  rw [stands_iff_lastOf, lastOn, kinds]

/-- The report of a cycle has put a part into the status that it has, which is not healthy. -/
def HarmedByCycle (notices : List Notice) (c : Component) (status : Status) : Prop :=
  (∃ outcome, lastOn c notices = some (.cycle outcome)) ∧
    (initial.noteAll notices).status? c = some status ∧ status ≠ .healthy

/-- What a cycle that did all that it was to do leaves of the harm of earlier ones. -/
structure RestoredBut (notices : List Notice) (n : Notice) : Prop where
  controller : (initial.noteAll (notices ++ [n])).status? .controller = some .healthy
  allocationStore : (initial.noteAll (notices ++ [n])).status? .allocationStore = some .healthy
  /-- Of what cycles have harmed, the metrics backend alone keeps its status. -/
  kept : ∀ c status, HarmedByCycle notices c status →
    ((initial.noteAll (notices ++ [n])).status? c = some status ↔ c = .metricsBackend)
  /-- It has been left behind by a cycle that could not set its alarm. -/
  leftBehind : ∀ status, HarmedByCycle notices .metricsBackend status →
    status = .degraded ∧ ∃ previous new memory alarm threshold error,
      lastOn .metricsBackend notices =
        some (.cycle (.scaled previous new memory (.stale alarm threshold error)))
  /-- It stays so until a batch is published. -/
  untilPublished : ∀ status later, HarmedByCycle notices .metricsBackend status →
    (∀ m ∈ later, m.isPublished = false) →
      (initial.noteAll (notices ++ n :: later)).status? .metricsBackend = some status

/-- A cycle that did all that it was to do makes good what earlier cycles did to the
controller and the allocation store. It says nothing about the metrics backend. -/
theorem success_restores_but_monitor (notices : List Notice) {n : Notice}
    (full : n.isFullSuccess = true) : RestoredBut notices n := by
  have after c : (initial.noteAll (notices ++ [n])).status? c =
      some ((n.verdict c).getD (shown notices c)).status := by
    rw [status?_noteAll, shown_append]
  have verdict := n.verdict_of_fullSuccess full
  -- What a cycle did to the metrics backend has not been mended by a batch.
  have stood {status : Status} (harmed : HarmedByCycle notices .metricsBackend status) :
      status = .degraded ∧ Stands Notice.faultsMonitor Notice.isPublished notices := by
    obtain ⟨-, before, ill⟩ := harmed
    rw [status?_noteAll, Option.some.injEq] at before
    obtain ⟨stands, degraded⟩ | ⟨-, healthy⟩ := shown_status notices .metricsBackend
    · exact ⟨before.symm.trans degraded, stands⟩
    · exact absurd (before.symm.trans healthy) ill
  constructor
  case controller => rw [after, verdict.1]; rfl
  case allocationStore => rw [after, verdict.2.1]; rfl
  case kept =>
    rintro c status ⟨-, before, ill⟩
    rw [status?_noteAll, Option.some.injEq] at before
    rw [after, Option.some.injEq]
    cases c with
    | pipeline => exact absurd (before.symm.trans (shown_pipeline notices)) ill
    | controller => simpa [verdict] using ill.symm
    | allocationStore => simpa [verdict] using ill.symm
    | metricsBackend => simpa [verdict] using before
  case leftBehind =>
    intro status harmed
    obtain ⟨degraded, stands⟩ := stood harmed
    obtain ⟨n, last, faults⟩ := (stands_iff_lastOn notices .metricsBackend).mp stands
    obtain ⟨outcome, by_cycle⟩ := harmed.1
    cases last.symm.trans by_cycle
    obtain ⟨previous, new, memory, alarm, threshold, error, rfl⟩ :=
      Notice.stale_of_faultsMonitor faults
    exact ⟨degraded, _, _, _, _, _, _, last⟩
  case untilPublished =>
    intro status later harmed unpublished
    obtain ⟨rfl, stands⟩ := stood harmed
    have quiet : ∀ m ∈ n :: later, m.isPublished = false := by
      simpa using ⟨Notice.isPublished_of_fullSuccess full, unpublished⟩
    rw [status?_noteAll, Option.some.injEq]
    exact (shown_eq_harmed_iff _ .metricsBackend).mpr (stands.append quiet)

/-- A cycle that could not set its alarm, and one to which nobody answered. -/
def troubles : List Notice :=
  [.cycle (.scaled ⟨"api", 1⟩ ⟨"api", 2⟩ 768 (.stale "memory" 614.4 (.notFound "alarm memory"))),
    .cycle (.failed .describing (.transient "no answer") none)]

/-- A cycle that did all that it was to do. -/
def remedy : Notice := .cycle (.scaled ⟨"api", 2⟩ ⟨"api", 3⟩ 1024 (.patched "memory" 819.2))

theorem troubles_harm :
    HarmedByCycle troubles .controller .degraded ∧
      HarmedByCycle troubles .allocationStore .unhealthy ∧
      HarmedByCycle troubles .metricsBackend .degraded :=
  ⟨⟨⟨_, rfl⟩, rfl, by decide⟩, ⟨⟨_, rfl⟩, rfl, by decide⟩, ⟨⟨_, rfl⟩, rfl, by decide⟩⟩

/-- After these troubles a success makes good the controller and the store, and leaves
the metrics backend. -/
theorem remedy_restores_but_monitor :
    remedy.isFullSuccess = true ∧ RestoredBut troubles remedy ∧
      HarmedByCycle troubles .controller .degraded ∧
      HarmedByCycle troubles .allocationStore .unhealthy ∧
      HarmedByCycle troubles .metricsBackend .degraded :=
  ⟨rfl, success_restores_but_monitor troubles rfl, troubles_harm⟩

/-- The metrics backend stays degraded by the cycle that could not set its alarm, though a
later cycle has set it. -/
theorem stale_alarm_outlives_success :
    remedy.isFullSuccess = true ∧ HarmedByCycle troubles .metricsBackend .degraded ∧
      (initial.noteAll (troubles ++ [remedy])).status? .metricsBackend = some .degraded :=
  ⟨rfl, troubles_harm.2.2, rfl⟩

end Health
end Headroom
