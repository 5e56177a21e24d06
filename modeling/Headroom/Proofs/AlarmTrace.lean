import Headroom.Proofs.Capacity
import Headroom.Proofs.Origins

/-!
What an alarm is set for when any number of controllers serve one service. A threshold
is for the memory of an allocation that the service has run with at some time, and as
long as no cycle takes memory away, for no more than it runs with now. A cycle that takes
memory away was shown a latest allocation with less (`alarms_traced`); such a cycle may
leave an alarm behind that is set for more than there is (`alarm_outlives_memory`).
-/
namespace Headroom.Interleaving

open Headroom.Cycle

variable {ι : Type}

/-- The call left a service with less memory. -/
def Entry.Lowers (e : Entry ι) (r : Request) : Prop :=
  ∃ old new, e.before.running? r.cluster r.service = some old ∧
    e.after.running? r.cluster r.service = some new ∧ new.memory < old.memory

/-- The service of a request ran with an allocation at some time. -/
def State.HasRun (s : State ι) (r : Request) (a : Allocation) : Prop :=
  ∃ earlier ∈ s.timeline, earlier.running? r.cluster r.service = some a

theorem State.HasRun.mono {s s' : State ι} {r : Request} {a : Allocation} (ran : s.HasRun r a)
    (times : s.timeline ⊆ s'.timeline) : s'.HasRun r a := by
  obtain ⟨earlier, member, running⟩ := ran
  exact ⟨earlier, times member, running⟩

/-- A service that stays bound runs with what it ran with. -/
theorem running?_of_bound {s after : Stores} {cluster service : String} {running : Allocation}
    (runs : s.running? cluster service = some running)
    (bound : after.bound? cluster service = s.bound? cluster service)
    (grows : s.registry.GrowsTo after.registry) :
    after.running? cluster service = some running := by
  obtain ⟨v, here, found⟩ := Option.bind_eq_some_iff.mp runs
  rw [Stores.running?, bound, here, Option.bind_some]
  exact grows.revision? found

variable [DecidableEq ι]

section

variable {setup : Setup ι} {stores : Stores} {s : State ι} {r : Request}

/-- A call after which the service is bound to what a cycle registered leaves it running
with that. -/
theorem Reachable.runs_called (reachable : Reachable setup stores s)
    (sound : stores.registry.Sound) (target : ∀ i, (setup.request i).SharesTarget r) {i : ι}
    {call : Call} {reply : call.Reply} {after : Stores} {fault : Fault}
    (attempted : s.stores.Attempted call fault reply after)
    (room : (after.registry.history r.family).length < UInt32.size) {new : Revision}
    {memory : UInt32} (stems : s.Stems setup i new memory)
    (bound : after.bound? r.cluster r.service = some new) :
    ∃ a, after.running? r.cluster r.service = some a ∧ a.memory = memory := by
  obtain ⟨candidate, planned, rfl, family, filed⟩ := stems
  have own : new.family = r.family := by
    rw [← family, planned.family reachable sound, (target i).family]
  refine ⟨{ candidate with number := new.number }, ?_, rfl⟩
  rw [Stores.running?, bound, Option.bind_some]
  exact (attempted.sound (reachable.sound sound)).revision?_of_mem (by rw [own]; exact room)
    ((attempted.grows new.family).subset filed)

/-- A reply that takes a cycle on to its alarm shows the service bound to what the cycle
registered. -/
theorem Reachable.hasRun_called (reachable : Reachable setup stores s)
    (sound : stores.registry.Sound) (target : ∀ i, (setup.request i).SharesTarget r) {i : ι}
    {course : Course} {reply : course.call.Reply} {after : Stores} {fault : Fault}
    (calling : s.standing? setup i = some (.due course))
    (attempted : s.stores.Attempted course.call fault reply after)
    (room : (after.registry.history r.family).length < UInt32.size)
    (ran : ∀ expected new memory threshold,
      course.stage = .adjustAlarm expected new memory threshold →
      ∃ a, s.HasRun r a ∧ a.memory = memory) :
    ∀ next, (course.answer (setup.rules (setup.controller i)) reply).next.standing = .due next →
      ∀ expected new memory threshold, next.stage = .adjustAlarm expected new memory threshold →
      ∃ a, (s.called i course reply after).HasRun r a ∧ a.memory = memory := by
  have stems : s.StageStems setup i course.stage := reachable.stems i _ calling
  have runs : ∀ {new : Revision} {memory : UInt32}, s.Stems setup i new memory →
      after.bound? r.cluster r.service = some new →
      ∃ a, (s.called i course reply after).HasRun r a ∧ a.memory = memory := by
    intro new memory stems bound
    obtain ⟨a, running, size⟩ := reachable.runs_called sound target attempted room stems bound
    exact ⟨a, ⟨after, List.mem_cons_self, running⟩, size⟩
  have request := reachable.request_eq calling
  obtain ⟨_, stage, attempt, walked⟩ := course
  subst request
  refine Course.answer_cases (motive := fun standing => ∀ next, standing = .due next →
    ∀ expected new memory threshold, next.stage = .adjustAlarm expected new memory threshold →
      ∃ a, (s.called i _ reply after).HasRun r a ∧ a.memory = memory) _ _ reply ?_ ?_ ?_
  · rintro detail - - next ⟨⟩ expected new memory threshold here
    obtain ⟨a, ran, size⟩ := ran expected new memory threshold here
    exact ⟨a, ran.mono (List.subset_cons_self _ _), size⟩
  · rintro stage path advance - next ⟨⟩ expected new memory threshold here
    cases advance with
    | rebound expected new memory =>
      cases here
      have bound : after.bound? (setup.request i).cluster (setup.request i).service = some new :=
        attempted.tells
      rw [(target i).cluster, (target i).service] at bound
      exact runs stems bound
    | @applied b new expected memory conflict active =>
      cases here
      have found : after.fleet.binding? (setup.request i).cluster (setup.request i).service =
          some b := attempted.tells
      rw [(target i).cluster, (target i).service] at found
      exact runs stems (by simp [Stores.bound?, Fleet.bound?, found, active])
    | _ => cases here
  · rintro outcome path - - next ⟨⟩

/-- A cycle that is at its alarm has seen the service run with what it registered. -/
theorem Reachable.hasRun (reachable : Reachable setup stores s) (sound : stores.registry.Sound)
    (target : ∀ i, (setup.request i).SharesTarget r)
    (room : (s.stores.registry.history r.family).length < UInt32.size) :
    ∀ i course, s.standing? setup i = some (.due course) → ∀ expected new memory threshold,
      course.stage = .adjustAlarm expected new memory threshold →
      ∃ a, s.HasRun r a ∧ a.memory = memory := by
  revert room
  refine reachable.invariant (P := fun s =>
    (s.stores.registry.history r.family).length < UInt32.size →
    ∀ i course, s.standing? setup i = some (.due course) → ∀ expected new memory threshold,
      course.stage = .adjustAlarm expected new memory threshold →
      ∃ a, s.HasRun r a ∧ a.memory = memory)
    (fun _ i course here => by cases here) ?_
  intro s s' reached ran step room i course here expected new memory threshold stage
  have same : s'.stores = s.stores → s'.log = s.log → s.standing? setup i = some (.due course) →
      ∃ a, s'.HasRun r a ∧ a.memory = memory := by
    intro stores log before
    obtain ⟨a, ran, size⟩ :=
      ran (by rwa [← stores]) i course before expected new memory threshold stage
    exact ⟨a, ran.mono (by simp [State.timeline, stores, log]), size⟩
  cases step.shift with
  | arrived j away now others stores log =>
    by_cases own : i = j
    · subst own
      obtain busy | started := now
      · cases here.symm.trans busy
      · cases here.symm.trans started
        cases stage
    · exact same stores log (by rw [← others i own]; exact here)
  | quiet unmoved stores log => exact same stores log (by rw [← unmoved i]; exact here)
  | called j course' reply after calling fault attempted next =>
    subst next
    have ran := ran (Nat.lt_of_le_of_lt (attempted.grows r.family).length_le room)
    by_cases own : i = j
    · subst own
      rw [State.standing?_called_self] at here
      exact reached.hasRun_called sound target calling attempted room (ran i course' calling)
        course (Option.some.inj here) expected new memory threshold stage
    · rw [State.standing?_called_other own] at here
      obtain ⟨a, ran, size⟩ := ran i course here expected new memory threshold stage
      exact ⟨a, ran.mono (List.subset_cons_self _ _), size⟩

/-- An alarm is set for an allocation that the service has run with. -/
theorem Reachable.alarm_hasRun (reachable : Reachable setup stores s)
    (sound : stores.registry.Sound) (target : ∀ i, (setup.request i).SharesTarget r)
    {p : ThresholdPolicy} (thresholds : ∀ i, (setup.rules (setup.controller i)).thresholds = p)
    {initial : Allocation} (runs : stores.running? r.cluster r.service = some initial)
    (set : ∀ a, stores.monitor.alarm? r.alarm = some a → a.threshold = p.threshold initial.memory)
    (room : (s.stores.registry.history r.family).length < UInt32.size) :
    ∀ a, s.stores.monitor.alarm? r.alarm = some a →
      ∃ old, s.HasRun r old ∧ a.threshold = p.threshold old.memory := by
  revert room
  refine reachable.invariant (P := fun s =>
    (s.stores.registry.history r.family).length < UInt32.size →
    ∀ a, s.stores.monitor.alarm? r.alarm = some a →
      ∃ old, s.HasRun r old ∧ a.threshold = p.threshold old.memory)
    (fun _ a found => ⟨initial, ⟨stores, List.mem_cons_self, runs⟩, set a found⟩) ?_
  intro s s' reached traced step room a found
  obtain ⟨same, log⟩ | ⟨i, course, reply, after, fault, calling, attempted, rfl⟩ :=
    step.call_or_still
  · rw [same] at found room
    obtain ⟨old, ran, exactly⟩ := traced room a found
    exact ⟨old, ran.mono (by simp [State.timeline, same, log]), exactly⟩
  · have room := Nat.lt_of_le_of_lt (attempted.grows r.family).length_le room
    obtain unchanged | ⟨threshold, patches, b, now, exactly⟩ := attempted.patches r.alarm
    · obtain ⟨old, ran, exactly⟩ := traced room a (by rw [← unchanged]; exact found)
      exact ⟨old, ran.mono (List.subset_cons_self _ _), exactly⟩
    · obtain rfl := Option.some.inj (now.symm.trans found)
      obtain ⟨expected, new, memory, stage⟩ := Stage.of_call_patchAlarm patches
      have stems : s.StageStems setup i course.stage := reached.stems i _ calling
      rw [stage] at stems
      obtain ⟨old, ran, rfl⟩ :=
        reached.hasRun sound target room i course calling expected new memory threshold stage
      refine ⟨old, ran.mono (List.subset_cons_self _ _), ?_⟩
      rw [exactly, stems.2, thresholds]

/-- A call leaves the service running with some allocation. -/
theorem Reachable.running_called (reachable : Reachable setup stores s)
    (sound : stores.registry.Sound) (target : ∀ i, (setup.request i).SharesTarget r) {i : ι}
    {course : Course} {reply : course.call.Reply} {after : Stores} {fault : Fault}
    (calling : s.standing? setup i = some (.due course))
    (attempted : s.stores.Attempted course.call fault reply after)
    (room : (after.registry.history r.family).length < UInt32.size) {running : Allocation}
    (runs : s.stores.running? r.cluster r.service = some running) :
    ∃ running', after.running? r.cluster r.service = some running' := by
  cases footprint attempted with
  | still bound _ =>
    exact ⟨running, running?_of_bound runs (bound _ _) attempted.grows⟩
  | registered candidate grown _ =>
    exact ⟨running, running?_of_bound runs (by rw [grown]; rfl) attempted.grows⟩
  | @moved cluster service source new rebind moved _ =>
    obtain ⟨⟨rfl, rfl⟩, memory, stage⟩ := Stage.of_call_rebind rebind
    have stems : s.StageStems setup i course.stage := reachable.stems i _ calling
    rw [stage] at stems
    have bound := moved.now
    rw [reachable.request_eq calling, (target i).cluster, (target i).service] at bound
    obtain ⟨a, running, -⟩ := reachable.runs_called sound target attempted room stems bound
    exact ⟨a, running⟩

/-- Unless some call took memory away, the service never ran with more than now. -/
theorem Reachable.running_most (reachable : Reachable setup stores s)
    (sound : stores.registry.Sound) (target : ∀ i, (setup.request i).SharesTarget r)
    {initial : Allocation} (runs : stores.running? r.cluster r.service = some initial)
    (room : (s.stores.registry.history r.family).length < UInt32.size)
    (raised : ∀ e ∈ s.log, ¬ e.Lowers r) :
    ∃ running, s.stores.running? r.cluster r.service = some running ∧
      ∀ old, s.HasRun r old → old.memory ≤ running.memory := by
  revert room raised
  refine reachable.invariant (P := fun s =>
    (s.stores.registry.history r.family).length < UInt32.size →
    (∀ e ∈ s.log, ¬ e.Lowers r) →
    ∃ running, s.stores.running? r.cluster r.service = some running ∧
      ∀ old, s.HasRun r old → old.memory ≤ running.memory) ?_ ?_
  · intro _ _
    refine ⟨initial, runs, ?_⟩
    rintro old ⟨earlier, member, running⟩
    rw [List.mem_singleton.mp member] at running
    rw [Option.some.inj (running.symm.trans runs)]
    exact UInt32.le_refl _
  · intro s s' reached most step room raised
    obtain ⟨same, log⟩ | ⟨i, course, reply, after, fault, calling, attempted, rfl⟩ :=
      step.call_or_still
    · rw [same] at room
      rw [log] at raised
      obtain ⟨running, runs, most⟩ := most room raised
      refine ⟨running, by rw [same]; exact runs, fun old ran => most old (ran.mono ?_)⟩
      simp [State.timeline, same, log]
    · obtain ⟨running, runs, most⟩ :=
        most (Nat.lt_of_le_of_lt (attempted.grows r.family).length_le room)
          fun e logged => raised e (List.mem_cons_of_mem _ logged)
      obtain ⟨running', runs'⟩ :=
        reached.running_called sound target calling attempted room runs
      have more : running.memory ≤ running'.memory := by
        refine UInt32.not_lt.mp fun less => ?_
        exact raised _ List.mem_cons_self ⟨running, running', runs, runs', less⟩
      refine ⟨running', runs', ?_⟩
      rintro old ⟨earlier, member, ran⟩
      obtain rfl | before := List.mem_cons.mp member
      · rw [Option.some.inj (ran.symm.trans runs')]
        exact UInt32.le_refl _
      · exact UInt32.le_trans (most old ⟨earlier, before, ran⟩) more

/-- A rebind in the log is of its cycle's own service, to what that registered. -/
theorem Reachable.rebind_registered (reachable : Reachable setup stores s) :
    ∀ e ∈ s.log, ∀ cluster service source new, e.call = .rebind cluster service source new →
      ((setup.request e.cycle).cluster = cluster ∧ (setup.request e.cycle).service = service) ∧
        new ∈ registered (s.transcript e.cycle) := by
  intro e logged cluster service source new rebind
  have told := State.exchange_mem_transcript logged
  obtain ⟨standing, -, follows⟩ := reachable.follows told
  obtain ⟨⟨rfl, rfl⟩, -, only⟩ := follows.rebinds e.exchange told cluster service source new rebind
  exact ⟨⟨rfl, rfl⟩, by rw [only]; exact List.mem_singleton_self _⟩

/-- A cycle that takes memory away was shown a latest allocation with less. -/
theorem Reachable.lowers_shown (reachable : Reachable setup stores s)
    (sound : stores.registry.Sound) (target : ∀ i, (setup.request i).SharesTarget r)
    (room : (s.stores.registry.history r.family).length < UInt32.size) :
    ∀ e ∈ s.log, e.Lowers r → ∃ current old, s.Shown setup e.cycle current ∧
      e.before.running? r.cluster r.service = some old ∧ current.memory < old.memory := by
  rintro e logged ⟨old, new, before, after, less⟩
  obtain ⟨fault, attempted⟩ := reachable.logged e logged
  have unmoved : e.after.bound? r.cluster r.service ≠ e.before.bound? r.cluster r.service := by
    intro bound
    obtain rfl := Option.some.inj
      ((running?_of_bound before bound attempted.grows).symm.trans after)
    exact UInt32.lt_irrefl _ less
  cases footprint attempted with
  | still bound _ => exact absurd (bound _ _) unmoved
  | registered candidate grown _ => exact absurd (by rw [grown]; rfl) unmoved
  | @moved cluster service source desired rebind moved _ =>
    obtain ⟨⟨rfl, rfl⟩, told⟩ := reachable.rebind_registered e logged _ _ _ _ rebind
    obtain ⟨_, candidate, planned, -, family, filed⟩ := reachable.registered_stems _ _ told
    have own : desired.family = r.family := by
      rw [← family, planned.family reachable sound, (target e.cycle).family]
    have bound := moved.now
    rw [(target e.cycle).cluster, (target e.cycle).service] at bound
    rw [Stores.running?, bound, Option.bind_some] at after
    -- what runs afterwards is the candidate of this cycle
    have grows := reachable.grows e.after (reachable.after_mem_timeline e logged)
    have named := (reachable.sound sound).revision?_of_mem (by rw [own]; exact room) filed
    obtain rfl := Option.some.inj (named.symm.trans (grows.revision? after))
    obtain ⟨current, shown, plan⟩ := planned
    have more := Sizing.Policy.plan_memory plan
    exact ⟨current, old, shown, before, UInt32.lt_trans more less⟩

end

/-- How an alarm keeps up with the service that it watches. -/
structure AlarmTraced (setup : Setup ι) (p : ThresholdPolicy) (r : Request) (s : State ι) :
    Prop where
  /-- It is set for the memory of an allocation that the service has run with. -/
  traced : ∀ a, s.stores.monitor.alarm? r.alarm = some a →
    ∃ old, s.HasRun r old ∧ a.threshold = p.threshold old.memory
  /-- Unless some cycle took memory away, that is no more than the service runs with. -/
  within : (∀ e ∈ s.log, ¬ e.Lowers r) → ∃ running,
    s.stores.running? r.cluster r.service = some running ∧
      ∀ a, s.stores.monitor.alarm? r.alarm = some a → p.Within running.memory a.threshold
  /-- A cycle that took memory away was shown a latest allocation with less than what the
  service ran with. -/
  lowered : ∀ e ∈ s.log, e.Lowers r → ∃ current old, s.Shown setup e.cycle current ∧
    e.before.running? r.cluster r.service = some old ∧ current.memory < old.memory

/-- Any number of controllers with one rule for thresholds serve one service, which
starts with the latest allocation of its family and an alarm set for that. In every order
of steps, and whatever befalls the calls, the alarm is set for what the service has run
with, and for no more than it runs with as long as no cycle plans from less. -/
theorem alarms_traced {setup : Setup ι} {stores : Stores} {s : State ι} {r : Request}
    {p : ThresholdPolicy} {initial : Allocation}
    (reachable : Reachable setup stores s) (sound : stores.registry.Sound)
    (target : ∀ i, (setup.request i).SharesTarget r)
    (thresholds : ∀ i, (setup.rules (setup.controller i)).thresholds = p)
    (last : (stores.registry.history r.family).getLast? = some initial)
    (bound : stores.bound? r.cluster r.service = some initial.revision)
    (set : ∀ a, stores.monitor.alarm? r.alarm = some a → a.threshold = p.threshold initial.memory)
    (room : (s.stores.registry.history r.family).length < UInt32.size) :
    AlarmTraced setup p r s := by
  have filed := List.mem_of_getLast? last
  have small : (stores.registry.history r.family).length < UInt32.size :=
    Nat.lt_of_le_of_lt (reachable.grown r.family).length_le room
  have runs : stores.running? r.cluster r.service = some initial := by
    rw [Stores.running?, bound, Option.bind_some]
    simp only [Allocation.revision, sound.family filed]
    exact sound.revision?_of_mem small filed
  have traced := reachable.alarm_hasRun sound target thresholds runs set room
  refine ⟨traced, fun raised => ?_, reachable.lowers_shown sound target room⟩
  obtain ⟨running, now, most⟩ := reachable.running_most sound target runs room raised
  refine ⟨running, now, fun a found => ?_⟩
  obtain ⟨old, ran, exactly⟩ := traced a found
  exact ⟨old.memory, most old ran, exactly⟩

theorem race_alarm {s : State (Fin 5)} (ran : raceRun? = some s) :
    (∃ running, s.stores.running? "main" "api" = some running ∧ running.memory = 32) ∧
      ∃ a, s.stores.monitor.alarm? "memory" = some a ∧
        a.threshold = ({} : ThresholdPolicy).threshold 40 := by
  have facts : raceRun?.map (fun s => ((s.stores.running? "main" "api").map (·.memory),
      (s.stores.monitor.alarm? "memory").map (·.threshold))) =
      some (some 32, some (({} : ThresholdPolicy).threshold 40)) := by decide +kernel
  rw [ran] at facts
  simpa only [Option.map_some, Option.some.injEq, Prod.mk.injEq, Option.map_eq_some_iff]
    using facts

/-- The alarm of the race is set for 40 MiB, which the service has run with. -/
theorem race_alarm_traced : ∃ s, raceRun? = some s ∧
    (∃ a, s.stores.monitor.alarm? "memory" = some a ∧
      a.threshold = ({} : ThresholdPolicy).threshold 40) ∧
    AlarmTraced race {} (race.request 0) s := by
  obtain ⟨s, ran⟩ := Option.isSome_iff_exists.mp (show raceRun?.isSome by decide +kernel)
  refine ⟨s, ran, (race_alarm ran).2, alarms_traced (Reachable.start.run ran) race_sound
    (fun _ => ⟨rfl, rfl, rfl, rfl⟩) (fun _ => rfl)
    (show _ = some { family := "api", number := 1, cpu := 256, memory := 16 } from rfl) rfl ?_
    (race_room ran _)⟩
  rintro a ⟨⟩
  rfl

/-- Nobody else writes, no call fails, and service and alarm start with the latest
revision; still the alarm ends up set for more memory than the service runs with. -/
theorem alarm_outlives_memory : race.controller.Injective ∧
    (∀ n, race.rules n = race.rules 0) ∧ (∀ i, race.request i = race.request 0) ∧
    raceStores.BoundToLatest "main" "api" "api" ∧
    (∃ a, raceStores.monitor.alarm? "memory" = some a ∧
      a.threshold = ({} : ThresholdPolicy).threshold 16) ∧
    ∃ s, raceRun? = some s ∧ Reachable race raceStores s ∧ (∀ e ∈ s.log, e.reply.isOk) ∧
      ∃ running a, s.stores.running? "main" "api" = some running ∧
        s.stores.monitor.alarm? "memory" = some a ∧
        ¬ ({} : ThresholdPolicy).Within running.memory a.threshold := by
  refine ⟨fun _ _ same => Fin.ext same, fun _ => rfl, fun _ => rfl, ⟨_, rfl, rfl⟩,
    ⟨_, rfl, rfl⟩, ?_⟩
  obtain ⟨s, ran⟩ := Option.isSome_iff_exists.mp (show raceRun?.isSome by decide +kernel)
  obtain ⟨⟨running, runs, size⟩, a, found, exactly⟩ := race_alarm ran
  refine ⟨s, ran, Reachable.start.run ran, race_answered ran, running, a, runs, found, ?_⟩
  rintro ⟨m, below, same⟩
  have apart : ∀ m : Fin 33, ({} : ThresholdPolicy).threshold m.val.toUInt32 ≠
      ({} : ThresholdPolicy).threshold 40 := by decide +kernel
  rw [size, UInt32.le_iff_toNat_le] at below
  refine apart ⟨m.toNat, Nat.lt_succ_of_le below⟩ ?_
  rw [← exactly, same]
  simp

end Headroom.Interleaving
