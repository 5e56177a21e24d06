import Headroom.Proofs.Exclusion
import Headroom.Proofs.Planning

/-!
How the allocation that a service runs with and the thresholds of the alarms keep up
with each other, when one controller serves all requests for the service and nobody
else writes. Plans start from the latest allocation, which a failed cycle may have left
behind, so three sizes have to be kept in order: no threshold is for more memory than
the service runs with, and that is no more than the latest allocation has
(`Capacity`). `Stage.Fits` says how a cycle under way stands to the three.
-/
namespace Headroom

open Headroom.Cycle

/-- A threshold for no more than this much memory. -/
def ThresholdPolicy.Within (p : ThresholdPolicy) (memory : UInt32) (threshold : Float) : Prop :=
  ∃ m ≤ memory, threshold = p.threshold m

theorem ThresholdPolicy.Within.mono {p : ThresholdPolicy} {memory more : UInt32}
    {threshold : Float} (within : p.Within memory threshold) (le : memory ≤ more) :
    p.Within more threshold := by
  obtain ⟨m, below, same⟩ := within
  exact ⟨m, UInt32.le_trans below le, same⟩

/-- The service of a request runs with one allocation of the family, of which another
one is the latest; the thresholds, the service and the latest allocation are in order. -/
structure Capacity (p : ThresholdPolicy) (r : Request) (s : Stores)
    (running latest : Allocation) : Prop where
  sound : s.registry.Sound
  bound : s.bound? r.cluster r.service = some running.revision
  filed : running ∈ s.registry.history r.family
  last : (s.registry.history r.family).getLast? = some latest
  ordered : running.memory ≤ latest.memory
  alarms : ∀ name a, s.monitor.alarm? name = some a → p.Within running.memory a.threshold

/-- How the stage of the cycle under way stands to the allocation that the service runs
with and to the latest one. A new revision is the latest one; until the cycle has bound
the service to it, the service runs with less memory. -/
def Cycle.Stage.Fits (p : ThresholdPolicy) (r : Request) (running latest : Allocation) :
    Stage → Prop
  | .readBinding => True
  | .readAllocation expected => running.revision = expected
  | .confirmBinding expected candidate | .register expected candidate =>
    running.revision = expected ∧ running.memory < candidate.memory ∧
      latest.memory ≤ candidate.memory ∧ candidate.family = r.family
  | .rebind expected new memory | .inspectBinding expected new memory _ =>
    latest.revision = new ∧ latest.memory = memory ∧
      (running = latest ∨ running.revision = expected ∧ running.memory < memory)
  | .adjustAlarm _ new memory threshold =>
    running.revision = new ∧ running.memory = memory ∧ threshold = p.threshold memory

/-- What a report of a set alarm says is so. -/
def Cycle.Outcome.Fits (p : ThresholdPolicy) (r : Request) (s : Stores) (running : Allocation) :
    Outcome → Prop
  | .scaled _ new memory (.patched name threshold) =>
    running.revision = new ∧ running.memory = memory ∧ threshold = p.threshold memory ∧
      name = r.alarm ∧ ∃ a, s.monitor.alarm? name = some a ∧ a.threshold = threshold
  | _ => True

namespace Capacity

variable {p : ThresholdPolicy} {r : Request} {s after : Stores} {running latest : Allocation}

theorem mem_latest (cap : Capacity p r s running latest) :
    latest ∈ s.registry.history r.family :=
  List.mem_of_getLast? cap.last

theorem running_family (cap : Capacity p r s running latest) : running.family = r.family :=
  cap.sound.family cap.filed

theorem latest_family (cap : Capacity p r s running latest) : latest.family = r.family :=
  cap.sound.family cap.mem_latest

theorem running? (cap : Capacity p r s running latest)
    (room : (s.registry.history r.family).length < UInt32.size) :
    s.running? r.cluster r.service = some running := by
  rw [Stores.running?, cap.bound, Option.bind_some]
  simp only [Allocation.revision, cap.running_family]
  exact cap.sound.revision?_of_mem room cap.filed

/-- A service bound to the latest revision runs with the latest allocation. -/
theorem eq_latest (cap : Capacity p r s running latest)
    (room : (s.registry.history r.family).length < UInt32.size)
    (same : running.revision = latest.revision) : running = latest :=
  cap.sound.number_inj room cap.filed cap.mem_latest (Revision.mk.inj same).2

/-- A registered candidate with at least the memory of the latest allocation. -/
theorem register (cap : Capacity p r s running latest) {candidate : Allocation}
    (family : candidate.family = r.family) (more : running.memory ≤ candidate.memory) :
    Capacity p r { s with registry := s.registry.append candidate } running
      { candidate with number := s.registry.nextNumber candidate.family } where
  sound := cap.sound.append candidate
  bound := cap.bound
  filed := (Registry.GrowsTo.append s.registry candidate r.family).subset cap.filed
  last := by
    rw [← family, Registry.append_history_self]
    simp
  ordered := more
  alarms := cap.alarms

/-- A service bound to the latest revision. -/
theorem rebind (cap : Capacity p r s running latest) :
    Capacity p r { s with fleet := s.fleet.moved r.cluster r.service latest.revision }
      latest latest where
  sound := cap.sound
  bound := Fleet.bound?_moved_self cap.bound latest.revision
  filed := cap.mem_latest
  last := cap.last
  ordered := UInt32.le_refl _
  alarms name a found := (cap.alarms name a found).mono cap.ordered

/-- An alarm set for the memory that the service runs with. -/
theorem patchAlarm (cap : Capacity p r s running latest) (name : String) :
    Capacity p r { s with monitor := s.monitor.patched name (p.threshold running.memory) }
      running latest where
  sound := cap.sound
  bound := cap.bound
  filed := cap.filed
  last := cap.last
  ordered := cap.ordered
  alarms other a found := by
    simp only [Monitor.patched] at found
    split at found
    · obtain ⟨_, _, rfl⟩ := Option.map_eq_some_iff.mp found
      exact ⟨running.memory, UInt32.le_refl _, rfl⟩
    · exact cap.alarms other a found

end Capacity

/-- Two requests for one service, perhaps with different alarms. -/
structure Request.SharesTarget (r' r : Request) : Prop where
  cluster : r'.cluster = r.cluster
  service : r'.service = r.service
  container : r'.container = r.container
  family : r'.family = r.family

namespace Capacity

variable {p : ThresholdPolicy} {r r' : Request} {s after : Stores} {running latest : Allocation}

/-- A call that is done keeps the order; the service gets more memory if anything. -/
theorem does (cap : Capacity p r s running latest) (shares : r'.SharesTarget r) {stage : Stage}
    (fits : stage.Fits p r running latest) {answer : (stage.call r').Answer}
    (does : s.Does (stage.call r') answer after) :
    ∃ running' latest', Capacity p r after running' latest' ∧ stage.Fits p r running' latest' ∧
      (running' = running ∨ running.memory < running'.memory) := by
  cases stage with
  | register expected candidate =>
    obtain ⟨here, more, most, family⟩ := fits
    cases does
    exact ⟨running, _, cap.register family (UInt32.le_of_lt more),
      ⟨here, more, UInt32.le_refl _, family⟩, .inl rfl⟩
  | rebind expected new memory =>
    obtain ⟨rfl, rfl, before⟩ := fits
    cases does
    refine ⟨latest, latest, ?_, ⟨rfl, rfl, .inl rfl⟩, ?_⟩
    · rw [shares.cluster, shares.service]
      exact cap.rebind
    · obtain rfl | ⟨-, less⟩ := before
      · exact .inl rfl
      · exact .inr less
  | adjustAlarm expected new memory threshold =>
    obtain ⟨here, rfl, rfl⟩ := fits
    cases does
    exact ⟨running, latest, cap.patchAlarm _, ⟨here, rfl, rfl⟩, .inl rfl⟩
  | _ =>
    cases does
    exact ⟨running, latest, cap, fits, .inl rfl⟩

theorem attempted (cap : Capacity p r s running latest) (shares : r'.SharesTarget r)
    {stage : Stage} (fits : stage.Fits p r running latest) {fault : Fault}
    {reply : (stage.call r').Reply}
    (attempted : s.Attempted (stage.call r') fault reply after) :
    ∃ running' latest', Capacity p r after running' latest' ∧ stage.Fits p r running' latest' ∧
      (running' = running ∨ running.memory < running'.memory) := by
  cases attempted with
  | failed error => exact ⟨running, latest, cap, fits, .inl rfl⟩
  | done does => exact cap.does shares fits does
  | lost error does _ => exact cap.does shares fits does

/-- A cycle that is shown its service bound to its new revision: the latest one runs. -/
theorem fits_bound (cap : Capacity p r s running latest)
    (room : (s.registry.history r.family).length < UInt32.size) {expected new : Revision}
    {memory : UInt32} (fits : (Stage.rebind expected new memory).Fits p r running latest)
    (bound : s.bound? r.cluster r.service = some new) :
    (Stage.adjustAlarm expected new memory (p.threshold memory)).Fits p r running latest := by
  obtain ⟨rfl, rfl, -⟩ := fits
  have here : running.revision = latest.revision := Option.some.inj (cap.bound.symm.trans bound)
  rw [cap.eq_latest room here]
  exact ⟨rfl, rfl, rfl⟩

/-- A cycle goes on to what fits, after an answer that tells how the stores are. -/
theorem advance {rules : Rules} (cap : Capacity rules.thresholds r s running latest)
    (room : (s.registry.history r.family).length < UInt32.size) (shares : r'.SharesTarget r)
    {stage : Stage} (fits : stage.Fits rules.thresholds r running latest)
    {reply : (stage.call r').Reply}
    (tells : ∀ answer, reply = .ok answer → s.Tells (stage.call r') answer)
    {next : Stage ⊕ Outcome} (advance : Advance rules r' stage reply next) :
    next.elim (Stage.Fits rules.thresholds r running latest)
      (Outcome.Fits rules.thresholds r' s running) := by
  cases advance with
  | bindingRead b =>
    have found : s.fleet.binding? r'.cluster r'.service = some b := tells b rfl
    rw [shares.cluster, shares.service] at found
    have bound := cap.bound
    simp only [Stores.bound?, Fleet.bound?, found, Option.map_some, Option.some.injEq] at bound
    exact bound.symm
  | @planned current candidate expected plan =>
    have found : (s.registry.history r'.family).getLast? = some current := tells current rfl
    rw [shares.family] at found
    obtain rfl := Option.some.inj (cap.last.symm.trans found)
    have more := Sizing.Policy.plan_memory plan
    exact ⟨fits, UInt32.lt_of_le_of_lt cap.ordered more, UInt32.le_of_lt more,
      (Sizing.Policy.plan_family plan).trans cap.latest_family⟩
  | confirmed candidate same => exact fits
  | registered expected candidate new =>
    obtain ⟨here, more, -, family⟩ := fits
    obtain ⟨own, last⟩ : new.family = candidate.family ∧
        (s.registry.history candidate.family).getLast? =
          some { candidate with number := new.number } := tells new rfl
    rw [family] at last
    obtain rfl := Option.some.inj (cap.last.symm.trans last)
    refine ⟨?_, rfl, .inr ⟨here, more⟩⟩
    simp only [Allocation.revision, ← family, ← own]
  | rebound expected new memory =>
    have bound : s.bound? r'.cluster r'.service = some new := tells () rfl
    rw [shares.cluster, shares.service] at bound
    exact cap.fits_bound room fits bound
  | contested expected new memory detail => exact fits
  | @applied b new expected memory conflict active =>
    have found : s.fleet.binding? r'.cluster r'.service = some b := tells b rfl
    rw [shares.cluster, shares.service] at found
    exact cap.fits_bound room fits (by simp [Stores.bound?, Fleet.bound?, found, active])
  | adjusted expected new memory threshold =>
    obtain ⟨here, size, exactly⟩ := fits
    exact ⟨here, size, exactly, rfl, tells () rfl⟩
  | _ => trivial

end Capacity

namespace Interleaving

variable {ι : Type}

/-- One controller serves all requests, and all are for one service. -/
structure Setup.Shares (setup : Setup ι) (controller : Nat) (r : Request) : Prop where
  controller : ∀ i, setup.controller i = controller
  target : ∀ i, (setup.request i).SharesTarget r

theorem Setup.Shares.key {setup : Setup ι} {controller : Nat} {r : Request}
    (shares : setup.Shares controller r) (i : ι) : (setup.request i).key = r.key := by
  have target := shares.target i
  simp only [Request.key, target.cluster, target.service, target.container]

/-- The call moved the service of a request, from an allocation to one with more memory. -/
def Entry.Raises (e : Entry ι) (r : Request) : Prop :=
  ∃ old new, e.before.running? r.cluster r.service = some old ∧
    e.after.running? r.cluster r.service = some new ∧ old.memory < new.memory

variable [DecidableEq ι]

/-- What every step keeps, as long as the family has room. -/
structure CapacityKept (setup : Setup ι) (p : ThresholdPolicy) (r : Request) (s : State ι)
    (running latest : Allocation) : Prop where
  capacity : Capacity p r s.stores running latest
  /-- Whoever is under way goes by what is so. -/
  fits : ∀ i standing, (s.phase i).Works → s.standing? setup i = some standing →
    standing.Meets (Stage.Fits p r running latest)
      (Outcome.Fits p (setup.request i) s.stores running)
  raises : ∀ e ∈ s.log, ∀ cluster service, e.Changes cluster service →
    (cluster = r.cluster ∧ service = r.service) ∧ e.Raises r

namespace CapacityKept

variable {setup : Setup ι} {p : ThresholdPolicy} {r : Request} {s : State ι}
  {running latest : Allocation} {controller : Nat}

omit [DecidableEq ι] in
/-- A step that is no call keeps it, if nobody comes to be under way but at the start. -/
theorem congr {s' : State ι} (kept : CapacityKept setup p r s running latest)
    (stores : s'.stores = s.stores) (log : s'.log = s.log)
    (works : ∀ i, (s'.phase i).Works →
      (s.phase i).Works ∧ s'.standing? setup i = s.standing? setup i ∨
        s'.standing? setup i = some (.due (Course.start (setup.request i)))) :
    CapacityKept setup p r s' running latest := by
  refine ⟨by rw [stores]; exact kept.capacity, fun i standing works' here => ?_, ?_⟩
  · obtain ⟨before, same⟩ | started := works i works'
    · rw [same] at here
      rw [stores]
      exact kept.fits i standing before here
    · obtain rfl := Option.some.inj (here.symm.trans started)
      exact trivial
  · rw [log]
    exact kept.raises

/-- A call of the only cycle under way keeps it. -/
theorem called (kept : CapacityKept setup p r s running latest)
    (shares : setup.Shares controller r) (thresholds : p = (setup.rules controller).thresholds)
    {i : ι} {course : Course} (calling : s.phase i = .calling course)
    (request : course.request = setup.request i)
    (alone : ∀ j, (s.phase j).Works → j = i) {fault : Fault} {reply : course.call.Reply}
    {after : Stores} (attempted : s.stores.Attempted course.call fault reply after)
    (room : (after.registry.history r.family).length < UInt32.size) :
    ∃ running' latest',
      CapacityKept setup p r (s.called i course reply after) running' latest' := by
  obtain ⟨_, stage, attempt, path⟩ := course
  subst request
  have target := shares.target i
  have fits : stage.Fits p r running latest :=
    kept.fits i (.due ⟨setup.request i, stage, attempt, path⟩) (by rw [calling]; trivial)
      (by simp only [State.standing?, calling])
  obtain ⟨running', latest', capacity, onward, more⟩ :=
    kept.capacity.attempted target fits attempted
  refine ⟨running', latest', capacity, fun j standing works here => ?_, ?_⟩
  · have same : j = i := by
      by_contra other
      exact other (alone j (by simpa [State.called, other] using works))
    subst same
    rw [State.standing?_called_self] at here
    rw [← Option.some.inj here]
    subst thresholds
    rw [shares.controller]
    have tells : ∀ answer, reply = .ok answer →
        after.Tells (stage.call (setup.request j)) answer := by
      rintro answer rfl
      exact attempted.tells
    refine Course.answer_cases (setup.rules controller) _ reply ?_ ?_ ?_
    · intro detail _ _
      exact onward
    · intro stage path advance _
      exact capacity.advance room target onward tells advance
    · intro outcome path advance _
      exact capacity.advance room target onward tells advance
  · intro e member cluster service changes
    obtain rfl | old := List.mem_cons.mp member
    · obtain ⟨_, _, rebind⟩ := attempted.rebinds fun same => changes same.symm
      obtain ⟨⟨rfl, rfl⟩, -⟩ := Stage.of_call_rebind rebind
      have here : (setup.request i).cluster = r.cluster ∧ (setup.request i).service = r.service :=
        ⟨target.cluster, target.service⟩
      refine ⟨here, running, running', ?_, capacity.running? room, ?_⟩
      · exact kept.capacity.running?
          (Nat.lt_of_le_of_lt (attempted.grows r.family).length_le room)
      · obtain rfl | more := more
        · rw [here.1, here.2] at changes
          exact absurd (kept.capacity.bound.trans capacity.bound.symm) changes
        · exact more
    · exact kept.raises e old cluster service changes

end CapacityKept

section

variable {setup : Setup ι} {stores : Stores} {s : State ι} {controller : Nat} {r : Request}
  {latest : Allocation}

theorem Reachable.capacityKept (reachable : Reachable setup stores s)
    (shares : setup.Shares controller r)
    (capacity : Capacity (setup.rules controller).thresholds r stores latest latest)
    (room : (s.stores.registry.history r.family).length < UInt32.size) :
    ∃ running latest,
      CapacityKept setup (setup.rules controller).thresholds r s running latest := by
  revert room
  refine reachable.invariant (P := fun s =>
    (s.stores.registry.history r.family).length < UInt32.size →
    ∃ running latest, CapacityKept setup (setup.rules controller).thresholds r s running latest)
    (fun _ => ⟨latest, latest, capacity, fun i _ works => works.elim,
      fun e member => by cases member⟩) ?_
  intro s s' reached kept step room
  cases step with
  | @turnedAway i arriving held =>
    obtain ⟨running, latest, kept⟩ := kept room
    refine ⟨running, latest, kept.congr rfl rfl fun j works => .inl ?_⟩
    obtain ⟨other, works⟩ := State.works_of_finished works
    exact ⟨works, State.standing?_enter_other other _⟩
  | @admitted i arriving free =>
    obtain ⟨running, latest, kept⟩ := kept room
    refine ⟨running, latest, kept.congr rfl rfl fun j works => ?_⟩
    by_cases same : j = i
    · subst same
      exact .inr (by simp [State.standing?, State.enter, State.hold])
    · exact .inl ⟨State.works_of_other same works, State.standing?_enter_other same _⟩
  | @called i course reply after calling fault attempted =>
    obtain ⟨running, latest, kept⟩ :=
      kept (Nat.lt_of_le_of_lt (attempted.grows r.family).length_le room)
    have works : (s.phase i).Works := by rw [calling]; trivial
    refine kept.called shares rfl calling (reached.request_eq (by simp [State.standing?, calling]))
      (fun j works' => ?_) attempted room
    exact reached.exclusive works' works
      ((shares.controller j).trans (shares.controller i).symm)
      ((shares.key j).trans (shares.key i).symm)
  | @resumed i course next reply answered goes =>
    obtain ⟨running, latest, kept⟩ := kept room
    refine ⟨running, latest, kept.congr rfl rfl fun j works => .inl ?_⟩
    by_cases same : j = i
    · subst same
      exact ⟨by rw [answered]; trivial, by simp [State.standing?, State.enter, answered, goes]⟩
    · exact ⟨State.works_of_other same works, State.standing?_enter_other same _⟩
  | @ended i course reply report answered ends =>
    obtain ⟨running, latest, kept⟩ := kept room
    refine ⟨running, latest, kept.congr rfl rfl fun j works => .inl ?_⟩
    obtain ⟨other, works⟩ := State.works_of_finished works
    exact ⟨works, State.standing?_enter_other other _⟩

end

/-- How the alarms follow the binding of the service that all requests are for. -/
structure AlarmsFollow (setup : Setup ι) (p : ThresholdPolicy) (r : Request) (s : State ι) :
    Prop where
  /-- No other binding changes, and every change of this one is to more memory. -/
  raises : ∀ e ∈ s.log, ∀ cluster service, e.Changes cluster service →
    (cluster = r.cluster ∧ service = r.service) ∧ e.Raises r
  /-- No alarm has a threshold for more memory than the service runs with. -/
  within : ∃ running, s.stores.running? r.cluster r.service = some running ∧
    ∀ name a, s.stores.monitor.alarm? name = some a → p.Within running.memory a.threshold
  /-- When a cycle has just ended and reports that it has set its alarm, the alarm has
  the threshold for the memory that the service runs with. -/
  exact : ∀ move s', s.step? setup move = some s' →
    ∀ i path source target memory name threshold, (∀ report, s.phase i ≠ .finished report) →
      s'.phase i = .finished ⟨.scaled source target memory (.patched name threshold), path⟩ →
      name = (setup.request i).alarm ∧
        ∃ running a, s'.stores.running? r.cluster r.service = some running ∧
          running.revision = target ∧ running.memory = memory ∧
          s'.stores.monitor.alarm? name = some a ∧ a.threshold = threshold ∧
          threshold = p.threshold running.memory

/-- One controller serves all requests for a service that starts with the latest
allocation of its family. Whatever befalls the calls and however the requests overlap,
the service only gets more memory, no alarm is ever set for more memory than it has,
and an alarm reported as set has just the threshold for it. Numbers have 32 bits, so the
family must not outgrow them. -/
theorem alarms_follow_binding {setup : Setup ι} {stores : Stores} {s : State ι}
    {controller : Nat} {r : Request} {latest : Allocation}
    (reachable : Reachable setup stores s) (shares : setup.Shares controller r)
    (sound : stores.registry.Sound)
    (last : (stores.registry.history r.family).getLast? = some latest)
    (bound : stores.bound? r.cluster r.service = some latest.revision)
    (alarms : ∀ name a, stores.monitor.alarm? name = some a →
      (setup.rules controller).thresholds.Within latest.memory a.threshold)
    (room : (s.stores.registry.history r.family).length < UInt32.size) :
    AlarmsFollow setup (setup.rules controller).thresholds r s := by
  have start : Capacity (setup.rules controller).thresholds r stores latest latest :=
    ⟨sound, bound, List.mem_of_getLast? last, last, UInt32.le_refl _, alarms⟩
  obtain ⟨running, newest, kept⟩ := reachable.capacityKept shares start room
  have runs := kept.capacity.running? room
  refine ⟨kept.raises, ⟨running, runs, kept.capacity.alarms⟩, ?_⟩
  intro move s' due i path source target memory name threshold before after
  obtain busy | ⟨works, here, same⟩ := (State.step due).ends before after
  · cases busy
  · obtain ⟨rfl, rfl, rfl, rfl, a, found, set⟩ := kept.fits i _ works here
    rw [same]
    exact ⟨rfl, running, a, runs, rfl, rfl, found, set, rfl⟩

/-- Two requests for one service at one controller, with an alarm each. -/
def series : Setup Bool where
  rules _ := {}
  controller _ := 0
  request second :=
    { cluster := "main", service := "api", container := "api", family := "api"
      alarm := if second then "low" else "high" }

def seriesStores : Stores where
  registry := ({} : Registry).append { family := "api", number := 0, cpu := 256, memory := 512 }
  fleet := ({} : Fleet).insert
    { cluster := "main", service := "api", container := "api", active := ⟨"api", 1⟩ }
  monitor := ({} : Monitor).insert
    { name := "high", metric := .memoryUtilized, metricNamespace := "api", dimensions := []
      comparison := .greater, threshold := ({} : ThresholdPolicy).threshold 512 }

/-- The first cycle registers twice, as it does not hear of the first time; the second
one starts from what was registered last, and loses the answer to its rebind. -/
def seriesMoves : List (Move Bool) :=
  let turn (i : Bool) : List (Move Bool) := [.call i .none, .take i]
  let unheard (i : Bool) : List (Move Bool) :=
    [.call i (.lost (.transient "no answer")), .take i]
  [.arrive false] ++ turn false ++ turn false ++ turn false ++ unheard false ++ turn false ++
    turn false ++ turn false ++
  [.arrive true] ++ turn true ++ turn true ++ turn true ++ turn true ++ unheard true ++
    turn true ++ turn true

theorem series_alarms_follow : ∃ s, ({ stores := seriesStores } : State Bool).run? series
    seriesMoves = some s ∧ s.stores.bound? "main" "api" = some ⟨"api", 4⟩ ∧
    AlarmsFollow series {} (series.request false) s := by
  have ran : (({ stores := seriesStores } : State Bool).run? series seriesMoves).map
      (·.stores.bound? "main" "api") = some (some ⟨"api", 4⟩) := by decide +kernel
  obtain ⟨s, reached, bound⟩ := Option.map_eq_some_iff.mp ran
  have shares : series.Shares 0 (series.request false) :=
    ⟨fun _ => rfl, fun _ => ⟨rfl, rfl, rfl, rfl⟩⟩
  have last : (seriesStores.registry.history "api").getLast? =
      some { family := "api", number := 1, cpu := 256, memory := 512 } := rfl
  refine ⟨s, reached, bound, alarms_follow_binding (Reachable.start.run reached) shares
    (Registry.Sound.empty.append _) last rfl ?_ ?_⟩
  · intro name a found
    simp only [seriesStores, Monitor.insert] at found
    split at found
    · obtain rfl := Option.some.inj found
      exact ⟨512, UInt32.le_refl _, rfl⟩
    · cases found
  · have few : (s.stores.registry.history "api").length ≤
        (seriesStores.registry.history "api").length + seriesMoves.length :=
      State.run?_length_history reached "api"
    have start : (seriesStores.registry.history "api").length = 1 := rfl
    have moves : seriesMoves.length = 30 := rfl
    show (s.stores.registry.history "api").length < UInt32.size
    simp only [UInt32.size]
    omega

end Interleaving
end Headroom
