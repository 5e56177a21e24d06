import Headroom.Proofs.BindingMoves
import Headroom.Proofs.Planning

/-!
Where the revisions come from that cycles register when they interleave. A cycle plans
from the allocation that it was shown as the latest of its family, and what it registers
has more memory than that (`Reachable.stems`), and more than the latest allocation at
the start (`Reachable.latest_ge`). It may still have less than what the service runs
with: the rebind is held to the revision that the cycle found bound, not to the one that
it was shown, and a cycle that registers late leaves an old size on top of the history
(`late_registration_lowers`).
-/
namespace Headroom.Interleaving

open Headroom.Cycle

variable {ι : Type}

/-- The call showed its cycle the latest allocation of a family. -/
structure Entry.Shows (e : Entry ι) (family : String) (current : Allocation) : Prop where
  exchange : e.exchange = ⟨.describe family, .ok current⟩
  latest : (e.before.registry.history family).getLast? = some current

namespace State

/-- A cycle was shown an allocation as the latest of its family. -/
def Shown (setup : Setup ι) (s : State ι) (i : ι) (current : Allocation) : Prop :=
  ∃ e ∈ s.log, e.cycle = i ∧ e.Shows (setup.request i).family current

/-- A cycle's rules make this candidate of an allocation that the cycle was shown. -/
def Planned (setup : Setup ι) (s : State ι) (i : ι) (candidate : Allocation) : Prop :=
  ∃ current, s.Shown setup i current ∧
    (setup.rules (setup.controller i)).sizing.plan current (setup.request i).container =
      .ok (.scaleTo candidate)

/-- A revision with so much memory is a candidate that its cycle planned. -/
def Stems (setup : Setup ι) (s : State ι) (i : ι) (new : Revision) (memory : UInt32) : Prop :=
  ∃ candidate, s.Planned setup i candidate ∧ candidate.memory = memory ∧
    candidate.family = new.family ∧
    { candidate with number := new.number } ∈ s.stores.registry.history new.family

variable {setup : Setup ι} {s s' : State ι} {i : ι}

theorem Shown.mono {current : Allocation} (shown : s.Shown setup i current)
    (logs : s.log ⊆ s'.log) : s'.Shown setup i current := by
  obtain ⟨e, logged, rest⟩ := shown
  exact ⟨e, logs logged, rest⟩

theorem Planned.mono {candidate : Allocation} (planned : s.Planned setup i candidate)
    (logs : s.log ⊆ s'.log) : s'.Planned setup i candidate := by
  obtain ⟨current, shown, plan⟩ := planned
  exact ⟨current, shown.mono logs, plan⟩

theorem Stems.mono {new : Revision} {memory : UInt32} (stems : s.Stems setup i new memory)
    (logs : s.log ⊆ s'.log) (grows : s.stores.registry.GrowsTo s'.stores.registry) :
    s'.Stems setup i new memory := by
  obtain ⟨candidate, planned, size, family, filed⟩ := stems
  exact ⟨candidate, planned.mono logs, size, family, (grows new.family).subset filed⟩

/-- What a stage goes by comes from what its cycle was shown. -/
def StageStems (setup : Setup ι) (s : State ι) (i : ι) : Stage → Prop
  | .readBinding | .readAllocation _ => True
  | .confirmBinding _ candidate | .register _ candidate => s.Planned setup i candidate
  | .rebind _ new memory | .inspectBinding _ new memory _ => s.Stems setup i new memory
  | .adjustAlarm _ new memory threshold =>
    s.Stems setup i new memory ∧
      threshold = (setup.rules (setup.controller i)).thresholds.threshold memory

/-- What an outcome reports comes from what its cycle was shown. -/
def OutcomeStems (setup : Setup ι) (s : State ι) (i : ι) : Outcome → Prop
  | .scaled _ new memory _ => s.Stems setup i new memory
  | .saturated revision memory ceiling =>
    ∃ current, s.Shown setup i current ∧ current.revision = revision ∧
      (setup.rules (setup.controller i)).sizing.plan current (setup.request i).container =
        .ok (.saturated memory ceiling)
  | _ => True

/-- Where a cycle stands comes from what it was shown. -/
def StandingStems (setup : Setup ι) (s : State ι) (i : ι) : Standing → Prop :=
  Standing.Meets (s.StageStems setup i) (s.OutcomeStems setup i)

theorem StandingStems.mono {standing : Standing} (stems : s.StandingStems setup i standing)
    (logs : s.log ⊆ s'.log) (grows : s.stores.registry.GrowsTo s'.stores.registry) :
    s'.StandingStems setup i standing := by
  cases standing with
  | due course =>
    unfold StandingStems Standing.Meets at stems ⊢
    cases stage : course.stage <;> simp only [stage, StageStems] at stems ⊢
    case confirmBinding => exact stems.mono logs
    case register => exact stems.mono logs
    case rebind => exact stems.mono logs grows
    case inspectBinding => exact stems.mono logs grows
    case adjustAlarm => exact ⟨stems.1.mono logs grows, stems.2⟩
  | ended report =>
    unfold StandingStems Standing.Meets at stems ⊢
    cases outcome : report.outcome <;> simp only [outcome, OutcomeStems] at stems ⊢
    case scaled => exact stems.mono logs grows
    case saturated =>
      obtain ⟨current, shown, rest⟩ := stems
      exact ⟨current, shown.mono logs, rest⟩

end State

theorem tells_of_exchange {s after : Stores} {call call' : Call} {fault : Fault}
    {reply : call.Reply} {answer : call'.Answer} (attempted : s.Attempted call fault reply after)
    (exchange : (⟨call, reply⟩ : Exchange) = ⟨call', .ok answer⟩) : after.Tells call' answer := by
  cases exchange
  exact attempted.tells

variable [DecidableEq ι]

section

variable {setup : Setup ι} {s : State ι} {i : ι}

/-- A reply takes a cycle on to what stems from what it was shown, with this reply. -/
theorem State.StandingStems.called {course : Course} {reply : course.call.Reply}
    {after : Stores} {fault : Fault} (stems : s.StandingStems setup i (.due course))
    (request : course.request = setup.request i)
    (attempted : s.stores.Attempted course.call fault reply after) :
    (s.called i course reply after).StandingStems setup i
      (course.answer (setup.rules (setup.controller i)) reply).next.standing := by
  have kept : (s.called i course reply after).StandingStems setup i (.due course) :=
    stems.mono (List.subset_cons_self _ _) attempted.grows
  obtain ⟨_, stage, attempt, walked⟩ := course
  subst request
  refine Course.answer_cases (setup.rules (setup.controller i)) _ reply ?_ ?_ ?_
  · intro detail _ _
    exact kept
  · intro next path advance _
    cases advance with
    | @planned current candidate expected plan =>
      refine ⟨current, ⟨_, List.mem_cons_self, rfl, rfl, ?_⟩, plan⟩
      cases attempted with
      | done does =>
        cases does with
        | readAllocation latest => exact latest
    | registered expected candidate new =>
      obtain ⟨family, last⟩ := attempted.tells
      refine ⟨candidate, kept, rfl, family.symm, ?_⟩
      rw [family]
      exact List.mem_of_getLast? last
    | rebound expected new memory => exact ⟨kept, rfl⟩
    | applied expected memory conflict bound => exact ⟨kept, rfl⟩
    | bindingRead b => trivial
    | confirmed candidate same => exact kept
    | contested expected new memory detail => exact kept
  · intro outcome path advance _
    cases advance with
    | @saturated current memory ceiling expected plan =>
      refine ⟨current, ⟨_, List.mem_cons_self, rfl, rfl, ?_⟩, rfl, plan⟩
      cases attempted with
      | done does =>
        cases does with
        | readAllocation latest => exact latest
    | adjusted expected new memory threshold => exact kept.1
    | leftBehind expected new memory threshold error => exact kept.1
    | _ => trivial

theorem Reachable.stems {stores : Stores} (reachable : Reachable setup stores s) :
    ∀ i standing, s.standing? setup i = some standing → s.StandingStems setup i standing := by
  refine reachable.invariant (P := fun s => ∀ i standing,
    s.standing? setup i = some standing → s.StandingStems setup i standing)
    (fun i standing here => by cases here) ?_
  intro s s' reached stems step i standing here
  cases step.shift with
  | arrived j away now others stores log =>
    by_cases same : i = j
    · subst same
      obtain busy | started := now
      · obtain rfl := Option.some.inj (here.symm.trans busy)
        trivial
      · obtain rfl := Option.some.inj (here.symm.trans started)
        trivial
    · rw [others i same] at here
      exact (stems i standing here).mono (by rw [log]; exact List.Subset.refl _)
        (by rw [stores]; exact .refl _)
  | called j course reply after calling fault attempted next =>
    subst next
    by_cases same : i = j
    · subst same
      rw [State.standing?_called_self] at here
      rw [← Option.some.inj here]
      exact (stems i _ calling).called (reached.request_eq calling) attempted
    · rw [State.standing?_called_other same] at here
      exact (stems i standing here).mono (List.subset_cons_self _ _) attempted.grows
  | quiet same stores log =>
    rw [same] at here
    exact (stems i standing here).mono (by rw [log]; exact List.Subset.refl _)
      (by rw [stores]; exact .refl _)

end

/-- A step makes one call, or leaves the stores and the log as they are. -/
theorem Step.call_or_still {setup : Setup ι} {s s' : State ι} (step : Step setup s s') :
    (s'.stores = s.stores ∧ s'.log = s.log) ∨
      ∃ i course reply after fault, s.standing? setup i = some (.due course) ∧
        s.stores.Attempted course.call fault reply after ∧ s' = s.called i course reply after := by
  cases step.shift with
  | arrived _ _ _ _ stores log => exact .inl ⟨stores, log⟩
  | called i course reply after calling fault attempted next =>
    exact .inr ⟨i, course, reply, after, fault, calling, attempted, next⟩
  | quiet _ stores log => exact .inl ⟨stores, log⟩

section

variable {setup : Setup ι} {stores : Stores} {s : State ι}

/-- What holds of the stores at the start and after every call holds of them at all
times. -/
theorem Reachable.always (reachable : Reachable setup stores s) {P : Stores → Prop}
    (start : P stores)
    (call : ∀ (s : State ι) i course reply after fault, Reachable setup stores s →
      (∀ earlier ∈ s.timeline, P earlier) → s.standing? setup i = some (.due course) →
      s.stores.Attempted course.call fault reply after → P after) :
    ∀ earlier ∈ s.timeline, P earlier := by
  refine reachable.invariant (P := fun s => ∀ earlier ∈ s.timeline, P earlier) ?_ ?_
  · intro earlier member
    rwa [List.mem_singleton.mp member]
  · intro s s' reached before step
    obtain ⟨stores, log⟩ | ⟨i, course, reply, after, fault, calling, attempted, rfl⟩ :=
      step.call_or_still
    · simpa only [State.timeline, stores, log] using before
    · intro earlier member
      obtain rfl | old := List.mem_cons.mp member
      · exact call s i course reply earlier fault reached before calling attempted
      · exact before earlier old

theorem Reachable.sound (reachable : Reachable setup stores s) (sound : stores.registry.Sound) :
    s.stores.registry.Sound :=
  reachable.always (P := fun stores => stores.registry.Sound) sound
    (fun s _ _ _ _ _ _ before _ attempted => attempted.sound (before s.stores List.mem_cons_self))
    s.stores List.mem_cons_self

/-- Every registry there has been is a part of the present one. -/
theorem Reachable.grows (reachable : Reachable setup stores s) :
    ∀ earlier ∈ s.timeline, earlier.registry.GrowsTo s.stores.registry := by
  refine reachable.invariant
    (P := fun s => ∀ earlier ∈ s.timeline, earlier.registry.GrowsTo s.stores.registry) ?_ ?_
  · intro earlier member
    rw [List.mem_singleton.mp member]
    exact .refl _
  · intro s s' _ grows step
    obtain ⟨stores, log⟩ | ⟨i, course, reply, after, fault, -, attempted, rfl⟩ :=
      step.call_or_still
    · simpa only [State.timeline, stores, log] using grows
    · intro earlier member
      obtain rfl | old := List.mem_cons.mp member
      · exact .refl _
      · exact (grows earlier old).trans attempted.grows

/-- The first registry is a part of the present one. -/
theorem Reachable.grown (reachable : Reachable setup stores s) :
    stores.registry.GrowsTo s.stores.registry :=
  reachable.always (P := fun later => stores.registry.GrowsTo later.registry) (.refl _)
    (fun s _ _ _ _ _ _ before _ attempted =>
      (before s.stores List.mem_cons_self).trans attempted.grows)
    s.stores List.mem_cons_self

/-- Every call in the log was made on the stores as they are logged. -/
theorem Reachable.logged (reachable : Reachable setup stores s) :
    ∀ e ∈ s.log, ∃ fault, e.before.Attempted e.call fault e.reply e.after := by
  refine reachable.invariant
    (P := fun s => ∀ e ∈ s.log, ∃ fault, e.before.Attempted e.call fault e.reply e.after)
    (fun e member => by cases member) ?_
  intro s s' _ logged step
  obtain ⟨-, log⟩ | ⟨i, course, reply, after, fault, -, attempted, rfl⟩ := step.call_or_still
  · rwa [log]
  · intro e member
    obtain rfl | old := List.mem_cons.mp member
    · exact ⟨fault, attempted⟩
    · exact logged e old

omit [DecidableEq ι] in
theorem State.before_mem_timeline {e : Entry ι} (logged : e ∈ s.log) : e.before ∈ s.timeline :=
  List.mem_cons_of_mem _ (List.mem_map_of_mem logged)

theorem Reachable.after_mem_timeline (reachable : Reachable setup stores s) :
    ∀ e ∈ s.log, e.after ∈ s.timeline := by
  refine reachable.invariant (P := fun s => ∀ e ∈ s.log, e.after ∈ s.timeline)
    (fun e member => by cases member) ?_
  intro s s' _ members step
  obtain ⟨stores, log⟩ | ⟨i, course, reply, after, fault, -, -, rfl⟩ := step.call_or_still
  · simpa only [State.timeline, stores, log] using members
  · intro e member
    obtain rfl | old := List.mem_cons.mp member
    · exact List.mem_cons_self
    · exact List.mem_cons_of_mem _ (members e old)

/-- An allocation that a cycle was shown is filed under its request's family. -/
theorem State.Shown.filed (reachable : Reachable setup stores s) {i : ι} {current : Allocation}
    (shown : s.Shown setup i current) :
    current ∈ s.stores.registry.history (setup.request i).family := by
  obtain ⟨e, logged, -, shows⟩ := shown
  have grows := reachable.grows e.before (State.before_mem_timeline logged)
  exact (grows _).subset (List.mem_of_getLast? shows.latest)

/-- A cycle plans for its request's family only. -/
theorem State.Planned.family (reachable : Reachable setup stores s)
    (sound : stores.registry.Sound) {i : ι} {candidate : Allocation}
    (planned : s.Planned setup i candidate) : candidate.family = (setup.request i).family := by
  obtain ⟨current, shown, plan⟩ := planned
  rw [Sizing.Policy.plan_family plan]
  exact (reachable.sound sound).family (shown.filed reachable)

/-- What a cycle is about to register, it has planned. -/
theorem Reachable.planned (reachable : Reachable setup stores s) {i : ι} {course : Course}
    {candidate : Allocation} (calling : s.standing? setup i = some (.due course))
    (registers : course.call = .register candidate) : s.Planned setup i candidate := by
  obtain ⟨expected, stage⟩ := Stage.of_call_register registers
  have stems : s.StageStems setup i course.stage := reachable.stems i _ calling
  rwa [stage] at stems

/-- What a cycle is told it registered is a candidate that it planned. -/
theorem Reachable.registered_stems (reachable : Reachable setup stores s) :
    ∀ i, ∀ new ∈ registered (s.transcript i), ∃ memory, s.Stems setup i new memory := by
  refine reachable.invariant (P := fun s => ∀ i, ∀ new ∈ registered (s.transcript i),
    ∃ memory, s.Stems setup i new memory) (fun i new member => by cases member) ?_
  intro s s' reached stems step i new member
  obtain ⟨stores, log⟩ | ⟨j, course, reply, after, fault, calling, attempted, rfl⟩ :=
    step.call_or_still
  · rw [State.transcript_of_log log] at member
    obtain ⟨memory, stems⟩ := stems i new member
    exact ⟨memory, stems.mono (by rw [log]; exact List.Subset.refl _)
      (by rw [stores]; exact .refl _)⟩
  · have before : new ∈ registered (s.transcript i) →
        ∃ memory, (s.called j course reply after).Stems setup i new memory := by
      intro old
      obtain ⟨memory, stems⟩ := stems i new old
      exact ⟨memory, stems.mono (List.subset_cons_self _ _) attempted.grows⟩
    by_cases same : i = j
    · subst same
      rw [State.transcript_called_self, registered_append, List.mem_append, Option.mem_toList]
        at member
      obtain old | now := member
      · exact before old
      · obtain ⟨candidate, exchange⟩ := Exchange.of_registered? now
        have planned := reached.planned calling (congrArg Exchange.call exchange)
        obtain ⟨family, last⟩ := tells_of_exchange attempted exchange
        refine ⟨candidate.memory, candidate, planned.mono (List.subset_cons_self _ _), rfl,
          family.symm, ?_⟩
        rw [family]
        exact List.mem_of_getLast? last
    · rw [State.transcript_called_other same] at member
      exact before member

/-- The latest allocation of a family never has less memory than at the start. -/
theorem Reachable.latest_ge (reachable : Reachable setup stores s)
    (sound : stores.registry.Sound) {family : String} {initial : Allocation}
    (first : (stores.registry.history family).getLast? = some initial) :
    ∀ earlier ∈ s.timeline, ∀ latest, (earlier.registry.history family).getLast? = some latest →
      initial.memory ≤ latest.memory := by
  refine reachable.always (P := fun stores => ∀ latest,
    (stores.registry.history family).getLast? = some latest → initial.memory ≤ latest.memory)
    ?_ ?_
  · intro latest last
    rw [Option.some.inj (first.symm.trans last)]
    exact UInt32.le_refl _
  · intro s i course reply after fault reached least calling attempted latest last
    obtain unchanged | ⟨candidate, registers, own, appended⟩ := attempted.registers family
    · rw [unchanged] at last
      exact least s.stores List.mem_cons_self latest last
    · -- the candidate was planned from what was the latest allocation at some time before
      have planned := reached.planned calling registers
      have family' := planned.family reached sound
      obtain ⟨current, ⟨e, logged, -, shows⟩, plan⟩ := planned
      have shown : initial.memory ≤ current.memory := by
        refine least e.before (State.before_mem_timeline logged) current ?_
        rw [← own, family']
        exact shows.latest
      rw [appended, ← own, Registry.append_history_self, List.getLast?_concat] at last
      rw [← Option.some.inj last]
      have more := Sizing.Policy.plan_memory plan
      exact UInt32.le_trans shown (UInt32.le_of_lt more)

end

/-- What a reported move did to the memory that a service runs with. -/
structure Outgrows (setup : Setup ι) (stores : Stores) (s : State ι) (i : ι)
    (source target : Revision) (memory : UInt32) : Prop where
  /-- The new revision has the reported memory, which is more than the cycle was shown. -/
  shown : ∃ current new, s.Shown setup i current ∧
    s.stores.registry.revision? target.family target.number = some new ∧ new.memory = memory ∧
    current.memory < memory ∧
    (current.revision = source → ∀ old,
      s.stores.registry.revision? source.family source.number = some old → old.memory < memory)
  /-- It is more than the latest allocation had at the start. -/
  first : ∀ initial, (stores.registry.history (setup.request i).family).getLast? = some initial →
    initial.memory < memory

/-- In every order of steps, and whatever befalls the calls, a cycle that reports a move
has brought its service to a revision with more memory than the latest allocation that
it was shown, and so with more than before if that is what the service ran with. -/
theorem scaled_above_shown {setup : Setup ι} {stores : Stores} {s : State ι}
    (reachable : Reachable setup stores s) (sound : stores.registry.Sound) {i : ι}
    (room : (s.stores.registry.history (setup.request i).family).length < UInt32.size)
    {path : List Cycle.State} {source target : Revision} {memory : UInt32} {alarm : AlarmUpdate}
    (finished : s.phase i = .finished ⟨.scaled source target memory alarm, path⟩) :
    Outgrows setup stores s i source target memory := by
  have sound' := reachable.sound sound
  have stems : s.StandingStems setup i (.ended ⟨.scaled source target memory alarm, path⟩) :=
    reachable.stems i _ (by simp only [State.standing?, finished])
  obtain ⟨candidate, planned, rfl, family, filed⟩ : s.Stems setup i target memory := stems
  have own := planned.family reachable sound
  obtain ⟨current, shown, plan⟩ := planned
  have more := Sizing.Policy.plan_memory plan
  refine ⟨⟨current, { candidate with number := target.number }, shown, ?_, rfl, more, ?_⟩, ?_⟩
  · exact sound'.revision?_of_mem (by rw [← family, own]; exact room) filed
  · rintro rfl old found
    have here := shown.filed reachable
    have named := sound'.revision?_of_mem room here
    rw [← sound'.family here] at named
    rw [← Option.some.inj (named.symm.trans found)]
    exact more
  · intro initial last
    obtain ⟨e, logged, -, shows⟩ := shown
    exact UInt32.lt_of_le_of_lt
      (reachable.latest_ge sound last e.before (State.before_mem_timeline logged) current
        shows.latest) more

/-- Every move that is reported is to a revision with more memory. -/
def State.ScaledUp (s : State ι) : Prop :=
  ∀ i path source target memory alarm old new,
    s.phase i = .finished ⟨.scaled source target memory alarm, path⟩ →
    s.stores.registry.revision? source.family source.number = some old →
    s.stores.registry.revision? target.family target.number = some new → old.memory < new.memory

/-- Five controllers with the same rules, which all serve one service. -/
def race : Setup (Fin 5) where
  rules _ := { sizing := { step := .plus 8 } }
  controller i := i
  request _ :=
    { cluster := "main", service := "api", container := "api", family := "api", alarm := "memory" }

/-- The service is bound to the only revision of its family, and the alarm is set for it. -/
def raceStores : Stores where
  registry := ({} : Registry).append { family := "api", number := 0, cpu := 256, memory := 16 }
  fleet := ({} : Fleet).insert
    { cluster := "main", service := "api", container := "api", active := ⟨"api", 1⟩ }
  monitor := ({} : Monitor).insert
    { name := "memory", metric := .memoryUtilized, metricNamespace := "api", dimensions := []
      comparison := .greater, threshold := ({} : ThresholdPolicy).threshold 16 }

/-- A cycle's calls, one after the other, each with its reply. -/
def turns (i : ι) (n : Nat) : List (Move ι) := (List.replicate n [.call i .none, .take i]).flatten

/-- The first cycle stops before it registers. Three others raise the service to 24, 32
and 40 MiB, the last of them without having set the alarm yet. Then the first cycle
registers its 24 MiB, and the fifth one plans from them, binds the service and sets the
alarm; last the fourth one sets the alarm. -/
def raceMoves : List (Move (Fin 5)) :=
  [.arrive 0] ++ turns 0 3 ++ [.arrive 1] ++ turns 1 6 ++ [.arrive 2] ++ turns 2 6 ++
    [.arrive 3] ++ turns 3 5 ++ turns 0 1 ++ [.arrive 4] ++ turns 4 6 ++ turns 3 1

def raceRun? : Option (State (Fin 5)) :=
  ({ stores := raceStores } : State (Fin 5)).run? race raceMoves

theorem race_sound : raceStores.registry.Sound := Registry.Sound.empty.append _

theorem race_room {s : State (Fin 5)} (ran : raceRun? = some s) : s.stores.registry.HasRoom := by
  intro family
  have start : (raceStores.registry.history family).length ≤ 1 := by
    simp only [raceStores, Registry.append]
    split <;> simp
  have moves : raceMoves.length = 61 := rfl
  refine State.run?_room ran (?_ : (raceStores.registry.history family).length + _ < _)
  simp only [UInt32.size]
  omega

/-- No call of the race fails. -/
theorem race_answered {s : State (Fin 5)} (ran : raceRun? = some s) :
    ∀ e ∈ s.log, e.reply.isOk := by
  have all : raceRun?.map (fun s => s.log.all (·.reply.isOk)) = some true := by decide +kernel
  rw [ran] at all
  exact List.all_eq_true.mp (Option.some.inj all)

/-- The fifth cycle takes the service from 40 to 32 MiB. -/
theorem race_lowers {s : State (Fin 5)} (ran : raceRun? = some s) :
    (∃ alarm path, s.phase 4 = .finished ⟨.scaled ⟨"api", 4⟩ ⟨"api", 6⟩ 32 alarm, path⟩) ∧
      (∃ old, s.stores.registry.revision? "api" 4 = some old ∧ old.memory = 40) ∧
      ∃ new, s.stores.registry.revision? "api" 6 = some new ∧ new.memory = 32 := by
  have facts : raceRun?.map (fun s => ((s.phase 4).outcome?,
      (s.stores.registry.revision? "api" 4).map (·.memory),
      (s.stores.registry.revision? "api" 6).map (·.memory))) =
      some (some (.scaled ⟨"api", 4⟩ ⟨"api", 6⟩ 32
        (.patched "memory" (({} : ThresholdPolicy).threshold 32))), some 40, some 32) := by
    decide +kernel
  rw [ran] at facts
  simp only [Option.map_some, Option.some.injEq, Prod.mk.injEq, Option.map_eq_some_iff] at facts
  obtain ⟨ended, old, new⟩ := facts
  exact ⟨⟨_, Phase.of_outcome? ended⟩, old, new⟩

/-- The fifth cycle of the race has outgrown what it was shown. -/
theorem race_outgrows : ∃ s alarm path, raceRun? = some s ∧
    s.phase 4 = .finished ⟨.scaled ⟨"api", 4⟩ ⟨"api", 6⟩ 32 alarm, path⟩ ∧
    Outgrows race raceStores s 4 ⟨"api", 4⟩ ⟨"api", 6⟩ 32 := by
  obtain ⟨s, ran⟩ := Option.isSome_iff_exists.mp (show raceRun?.isSome by decide +kernel)
  obtain ⟨⟨alarm, path, ended⟩, -⟩ := race_lowers ran
  exact ⟨s, alarm, path, ran, ended,
    scaled_above_shown (Reachable.start.run ran) race_sound (race_room ran _) ended⟩

/-- Nobody else writes, no call fails, and the service starts with the latest revision;
still a cycle reports a move that took memory away. -/
theorem late_registration_lowers : race.controller.Injective ∧
    (∀ n, race.rules n = race.rules 0) ∧ (∀ i, race.request i = race.request 0) ∧
    raceStores.BoundToLatest "main" "api" "api" ∧
    ∃ s, raceRun? = some s ∧ Reachable race raceStores s ∧ (∀ e ∈ s.log, e.reply.isOk) ∧
      ¬ s.ScaledUp := by
  refine ⟨fun _ _ same => Fin.ext same, fun _ => rfl, fun _ => rfl, ⟨_, rfl, rfl⟩, ?_⟩
  obtain ⟨s, ran⟩ := Option.isSome_iff_exists.mp (show raceRun?.isSome by decide +kernel)
  refine ⟨s, ran, Reachable.start.run ran, race_answered ran, fun up => ?_⟩
  obtain ⟨⟨alarm, path, ended⟩, ⟨old, was, less⟩, new, is, more⟩ := race_lowers ran
  have raised := up 4 path _ _ _ alarm old new ended was is
  rw [less, more] at raised
  exact absurd raised (by decide)

end Headroom.Interleaving
