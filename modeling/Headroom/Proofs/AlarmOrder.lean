import Headroom.Proofs.Origins
import Headroom.Proofs.Provenance

/-!
Which threshold an alarm is left with when the cycles of any number of controllers serve
one service and no call fails. A cycle binds its service only away from the revision that
it read first, but it sets the alarm in a call of its own that asks for nothing. So the
alarm is left with the threshold of whichever cycle sets it last, and that may be one
whose revision the service has been moved away from in the meantime
(`set_by_last_patch`, `late_patch_stays`).
-/
namespace Headroom

namespace Stores

theorem perform_patchAlarm {s : Stores} {name : String}
    (there : (s.monitor.alarm? name).isSome) (threshold : Float) :
    s.perform (.patchAlarm name threshold) =
      (.ok (), { s with monitor := s.monitor.patched name threshold }) := by
  rcases s.monitor.patchAlarm_cases name threshold with ⟨error, refused⟩ | ⟨-, patched⟩
  · obtain ⟨alarm, found⟩ := Option.isSome_iff_exists.mp there
    simp [Monitor.patchAlarm, found] at refused
  · simp [perform, patched]

theorem Does.alarm_isSome {s after : Stores} {call : Call} {answer : call.Answer}
    (does : s.Does call answer after) (name : String) :
    (after.monitor.alarm? name).isSome = (s.monitor.alarm? name).isSome := by
  cases does with
  | patchAlarm _ threshold =>
    simp only [Monitor.patched]
    split <;> simp
  | _ => rfl

/-- No call makes an alarm or does away with one. -/
theorem Attempted.alarm_isSome {s after : Stores} {call : Call} {fault : Fault}
    {reply : call.Reply} (attempted : s.Attempted call fault reply after) (name : String) :
    (after.monitor.alarm? name).isSome = (s.monitor.alarm? name).isSome := by
  cases attempted with
  | failed error => rfl
  | done does => exact does.alarm_isSome name
  | lost error does _ => exact does.alarm_isSome name

end Stores

namespace Interleaving

open Headroom.Cycle

variable {ι : Type}

namespace Entry

/-- The call asks for a threshold of an alarm. -/
def Patches (e : Entry ι) (name : String) : Prop := ∃ threshold, e.call = .patchAlarm name threshold

/-- The call was made on the stores with nothing going wrong on its way. -/
def Unfailing (e : Entry ι) : Prop := e.before.perform e.call = (e.reply, e.after)

/-- A patch of an alarm that is there sets it, and is answered. -/
theorem Unfailing.patched {e : Entry ι} (unfailing : e.Unfailing) {name : String}
    {threshold : Float} (patch : e.call = .patchAlarm name threshold)
    (there : (e.before.monitor.alarm? name).isSome) :
    e.exchange = ⟨.patchAlarm name threshold, .ok ()⟩ ∧
      ∃ a, e.after.monitor.alarm? name = some a ∧ a.threshold = threshold := by
  obtain ⟨cycle, call, reply, before, after⟩ := e
  subst patch
  have there : (before.monitor.alarm? name).isSome := there
  have performed := Stores.perform_patchAlarm there threshold
  obtain ⟨rfl, rfl⟩ := Prod.mk.inj (performed.symm.trans unfailing)
  exact ⟨rfl, Monitor.alarm?_patched_self there threshold⟩

/-- A service is moved by a rebind, which is answered. -/
theorem Unfailing.rebound {e : Entry ι} (unfailing : e.Unfailing) {cluster service : String}
    {source target : Revision} (moves : e.Moves cluster service source target) :
    e.exchange = ⟨.rebind cluster service source target, .ok ()⟩ := by
  obtain ⟨cycle, call, reply, before, after⟩ := e
  have here : before.bound? cluster service = some source := moves.before
  have gone : after.bound? cluster service = some target := moves.after
  have unmoved : after.bound? cluster service ≠ before.bound? cluster service := by
    rw [here, gone]
    simpa using moves.different.symm
  rcases before.perform_cases call with ⟨error, refused⟩ | ⟨answer, later, done, does⟩
  · obtain ⟨-, rfl⟩ := Prod.mk.inj (refused.symm.trans unfailing)
    exact absurd rfl unmoved
  · obtain ⟨rfl, rfl⟩ := Prod.mk.inj (done.symm.trans unfailing)
    cases does with
    | @rebind c v expected bound desired =>
      have moved := Stores.moved_of_bound bound desired
      by_cases own : cluster = c ∧ service = v
      · obtain ⟨rfl, rfl⟩ := own
        obtain rfl := Option.some.inj (bound.symm.trans here)
        obtain rfl := Option.some.inj (moved.now.symm.trans gone)
        rfl
      · exact absurd (moved.others cluster service own) unmoved
    | _ => exact absurd rfl unmoved

/-- Of the calls for an alarm, one comes last. -/
theorem exists_last_patch {log : List (Entry ι)} {name : String} {e : Entry ι} (logged : e ∈ log)
    (patches : e.Patches name) : ∃ newer last older, log = newer ++ last :: older ∧
      last.Patches name ∧ ∀ e' ∈ newer, ¬ e'.Patches name := by
  induction log with
  | nil => cases logged
  | cons head rest ih =>
    by_cases here : head.Patches name
    · exact ⟨[], head, rest, rfl, here, by simp⟩
    · rcases List.mem_cons.mp logged with rfl | later
      · exact absurd patches here
      · obtain ⟨newer, last, older, rfl, own, none⟩ := ih later
        refine ⟨head :: newer, last, older, rfl, own, ?_⟩
        intro e' member
        rcases List.mem_cons.mp member with rfl | among
        · exact here
        · exact none e' among

end Entry

/-- A call leaves a service where it is bound, or moves it on. -/
theorem bound_or_moves {s after : Stores} {call : Call} {fault : Fault} {reply : call.Reply}
    (attempted : s.Attempted call fault reply after) {cluster service : String} {v : Revision}
    (bound : s.bound? cluster service = some v) (cycle : ι) :
    after.bound? cluster service = some v ∨
      ∃ next, Entry.Moves ⟨cycle, call, reply, s, after⟩ cluster service v next := by
  by_cases still : after.bound? cluster service = some v
  · exact .inl still
  · cases footprint attempted with
    | still unchanged _ => exact .inl ((unchanged cluster service).trans bound)
    | registered candidate grown _ =>
      subst grown
      exact .inl bound
    | @moved c w source target rebind moved _ =>
      by_cases own : cluster = c ∧ service = w
      · obtain ⟨rfl, rfl⟩ := own
        refine .inr ⟨target, bound, moved.now, ?_⟩
        rintro rfl
        exact still moved.now
      · exact .inl ((moved.others cluster service own).trans bound)

/-- A cycle that takes its service to be moved has seen it there, after the call that
told it so. -/
theorem bound_called {setup : Setup ι} {s : State ι} {i : ι} {course : Course}
    {reply : course.call.Reply} {after : Stores} {fault : Fault}
    (request : course.request = setup.request i)
    (attempted : s.stores.Attempted course.call fault reply after) {source target : Revision}
    (moved : (course.answer (setup.rules (setup.controller i)) reply).next.standing.moved? =
      some (source, target)) :
    course.stage.moved? = some (source, target) ∨
      after.bound? (setup.request i).cluster (setup.request i).service = some target := by
  revert moved
  refine Course.answer_cases (motive := fun standing => standing.moved? = some (source, target) →
    course.stage.moved? = some (source, target) ∨
      after.bound? (setup.request i).cluster (setup.request i).service = some target)
    (setup.rules (setup.controller i)) course reply ?_ ?_ ?_
  · intro detail _ _ moved
    exact .inl moved
  · intro next path advance _ moved
    obtain ⟨_, stage, attempt, walked⟩ := course
    subst request
    cases advance with
    | rebound expected new memory =>
      obtain ⟨rfl, rfl⟩ := Prod.mk.inj (Option.some.inj moved)
      exact .inr attempted.tells
    | @applied b new expected memory conflict active =>
      obtain ⟨rfl, rfl⟩ := Prod.mk.inj (Option.some.inj moved)
      have found : after.fleet.binding? (setup.request i).cluster (setup.request i).service =
        some b := attempted.tells
      exact .inr (by simp [Stores.bound?, Fleet.bound?, found, active])
    | _ => cases moved
  · intro outcome path advance _ moved
    obtain ⟨_, stage, attempt, walked⟩ := course
    subst request
    cases advance with
    | adjusted expected new memory threshold => exact .inl moved
    | leftBehind expected new memory threshold error => exact .inl moved
    | _ => cases moved

/-- Both cycles asked for thresholds of the alarm, and the second one was the last to. -/
def State.PatchedBefore (s : State ι) (name : String) (j k : ι) : Prop :=
  ∃ newer last older, s.log = newer ++ last :: older ∧ last.cycle = k ∧ last.Patches name ∧
    (∀ e ∈ newer, ¬ e.Patches name) ∧ ∃ e ∈ older, e.cycle = j ∧ e.Patches name

variable [DecidableEq ι]

section

variable {setup : Setup ι} {stores : Stores} {s : State ι}

theorem Reachable.alarm_isSome (reachable : Reachable setup stores s) (name : String) :
    ∀ earlier ∈ s.timeline,
      (earlier.monitor.alarm? name).isSome = (stores.monitor.alarm? name).isSome := by
  refine reachable.always rfl ?_
  intro s i course reply after fault _ before _ attempted
  rw [attempted.alarm_isSome]
  exact before s.stores List.mem_cons_self

/-- An alarm is as it was left by a call after which nobody asked for another threshold. -/
theorem Reachable.alarm_since (reachable : Reachable setup stores s) {name : String} :
    ∀ newer e older, s.log = newer ++ e :: older → (∀ e' ∈ newer, ¬ e'.Patches name) →
      s.stores.monitor.alarm? name = e.after.monitor.alarm? name := by
  refine reachable.invariant (P := fun s => ∀ newer e older, s.log = newer ++ e :: older →
    (∀ e' ∈ newer, ¬ e'.Patches name) →
      s.stores.monitor.alarm? name = e.after.monitor.alarm? name) ?_ ?_
  · intro newer e older split
    simp at split
  · intro s s' _ since step newer e older split none
    rcases step.call_or_still with
      ⟨stores, log⟩ | ⟨i, course, reply, after, fault, -, attempted, rfl⟩
    · rw [stores]
      exact since newer e older (log.symm.trans split) none
    · cases newer with
      | nil =>
        obtain ⟨rfl, -⟩ := List.cons.inj split
        rfl
      | cons last newer =>
        obtain ⟨rfl, rest⟩ := List.cons.inj split
        rcases attempted.patches name with same | ⟨threshold, patch, -⟩
        · refine same.trans (since newer e older rest fun e' member => ?_)
          exact none e' (List.mem_cons_of_mem _ member)
        · exact absurd ⟨threshold, patch⟩ (none _ List.mem_cons_self)

/-- The service of a cycle that takes it to be moved is where the cycle moved it, or has
been moved on from there. -/
theorem Reachable.bound_or_left (reachable : Reachable setup stores s) :
    ∀ i standing source target, s.standing? setup i = some standing →
      standing.moved? = some (source, target) →
      s.stores.bound? (setup.request i).cluster (setup.request i).service = some target ∨
        ∃ e ∈ s.log, ∃ next,
          e.Moves (setup.request i).cluster (setup.request i).service target next := by
  refine reachable.invariant (P := fun s => ∀ i standing source target,
    s.standing? setup i = some standing → standing.moved? = some (source, target) →
      s.stores.bound? (setup.request i).cluster (setup.request i).service = some target ∨
        ∃ e ∈ s.log, ∃ next,
          e.Moves (setup.request i).cluster (setup.request i).service target next)
    (fun i standing source target here => by cases here) ?_
  intro s s' reached where? step i standing source target here moved
  cases step.shift with
  | arrived j away now others stores log =>
    by_cases same : i = j
    · subst same
      rcases now with busy | started
      · obtain rfl := Option.some.inj (here.symm.trans busy)
        cases moved
      · obtain rfl := Option.some.inj (here.symm.trans started)
        cases moved
    · rw [others i same] at here
      rw [stores, log]
      exact where? i standing source target here moved
  | called j course reply after calling fault attempted next =>
    subst next
    have onward : (s.stores.bound? (setup.request i).cluster (setup.request i).service =
          some target ∨ ∃ e ∈ s.log, ∃ next,
          e.Moves (setup.request i).cluster (setup.request i).service target next) →
        after.bound? (setup.request i).cluster (setup.request i).service = some target ∨
          ∃ e ∈ (s.called j course reply after).log, ∃ next,
            e.Moves (setup.request i).cluster (setup.request i).service target next := by
      rintro (bound | ⟨e, logged, left⟩)
      · rcases bound_or_moves attempted bound j with still | left
        · exact .inl still
        · exact .inr ⟨_, List.mem_cons_self, left⟩
      · exact .inr ⟨e, List.mem_cons_of_mem _ logged, left⟩
    by_cases same : i = j
    · subst same
      rw [State.standing?_called_self] at here
      obtain rfl := Option.some.inj here
      rcases bound_called (reached.request_eq calling) attempted moved with earlier | bound
      · exact onward (where? i _ source target calling earlier)
      · exact .inl bound
    · rw [State.standing?_called_other same] at here
      exact onward (where? i standing source target here moved)
  | quiet same stores log =>
    rw [same] at here
    rw [stores, log]
    exact where? i standing source target here moved

/-- What a call was replied to with leads to where its cycle stands. -/
theorem Reachable.follows_logged (reachable : Reachable setup stores s) {e : Entry ι}
    (logged : e ∈ s.log) {report : Report} (closed : s.phase e.cycle = .finished report) :
    Follows (setup.rules (setup.controller e.cycle)) (setup.request e.cycle)
      (s.transcript e.cycle) (.ended report) := by
  obtain ⟨standing, here, follows⟩ := reachable.follows (State.exchange_mem_transcript logged)
  rw [State.standing?_of_finished closed] at here
  obtain rfl := Option.some.inj here
  exact follows

/-- A cycle that has ended after a patch that nothing went wrong with reports so. -/
theorem Reachable.scaled_of_patch (reachable : Reachable setup stores s) {name : String}
    (there : (stores.monitor.alarm? name).isSome) {e : Entry ι} (logged : e ∈ s.log)
    (unfailing : e.Unfailing) (patches : e.Patches name) {report : Report}
    (closed : s.phase e.cycle = .finished report) :
    ∃ source target memory path, ∃ a, e.after.monitor.alarm? name = some a ∧
      a.threshold = (setup.rules (setup.controller e.cycle)).thresholds.threshold memory ∧
      report = ⟨.scaled source target memory (.patched name a.threshold), path⟩ := by
  obtain ⟨threshold, patch⟩ := patches
  have present : (e.before.monitor.alarm? name).isSome := by
    rw [reachable.alarm_isSome name e.before (State.before_mem_timeline logged)]
    exact there
  obtain ⟨exchange, a, found, rfl⟩ := unfailing.patched patch present
  have follows := reachable.follows_logged logged closed
  have told := State.exchange_mem_transcript logged
  rw [exchange] at told
  obtain ⟨source, target, memory, path, ended⟩ := follows.ended_of_patched _ _ told
  obtain rfl := Standing.ended.inj ended
  have adjusted : Adjusted _ _ _ source target memory name a.threshold (.ok ()) := follows.sourced
  exact ⟨source, target, memory, path, a, found, adjusted.exactly, rfl⟩

/-- An alarm that a cycle reports as set is there, and the cycle has asked for it. -/
theorem Reachable.alarm_there (reachable : Reachable setup stores s) {name : String}
    (alarm : ∀ i, (setup.request i).alarm = name)
    (patched : ∃ i path source target memory name threshold,
      s.phase i = .finished ⟨.scaled source target memory (.patched name threshold), path⟩) :
    (∃ e ∈ s.log, e.Patches name) ∧ (stores.monitor.alarm? name).isSome := by
  obtain ⟨i, path, source, target, memory, own, threshold, ended⟩ := patched
  rcases (reachable.tracked i).here _ (State.standing?_of_finished ended) with follows | ⟨-, busy⟩
  · obtain ⟨-, rfl, -, patch⟩ : Adjusted _ _ _ source target memory own threshold (.ok ()) :=
      follows.sourced
    rw [alarm i] at patch
    obtain ⟨e, logged, -, exchange⟩ := State.of_mem_transcript patch
    refine ⟨⟨e, logged, threshold, congrArg Exchange.call exchange⟩, ?_⟩
    obtain ⟨fault, attempted⟩ := reachable.logged e logged
    obtain ⟨a, found, -⟩ := tells_of_exchange attempted exchange
    rw [← reachable.alarm_isSome name e.after (reachable.after_mem_timeline e logged), found]
    rfl
  · cases busy

/-- A service that is bound to what a cycle registered runs with that. -/
theorem Reachable.running_stems (reachable : Reachable setup stores s)
    (sound : stores.registry.Sound) (room : s.stores.registry.HasRoom) {i : ι}
    {new : Revision} {memory : UInt32} (stems : s.Stems setup i new memory)
    {cluster service : String} (bound : s.stores.bound? cluster service = some new) :
    ∃ running, s.stores.running? cluster service = some running ∧
      running.revision = new ∧ running.memory = memory := by
  obtain ⟨candidate, -, rfl, family, filed⟩ := stems
  refine ⟨{ candidate with number := new.number }, ?_, ?_, rfl⟩
  · rw [Stores.running?, bound, Option.bind_some]
    exact (reachable.sound sound).revision?_of_mem (room new.family) filed
  · simp only [Allocation.revision, family]

end

/-- The cycle whose threshold an alarm is left with. -/
structure LeavesAlarm (s : State ι) (p : ThresholdPolicy) (cluster service name : String) (k : ι)
    (target : Revision) (memory : UInt32) : Prop where
  /-- It reports that it has moved the service and set the alarm. -/
  reported : ∃ source path,
    s.phase k = .finished ⟨.scaled source target memory (.patched name (p.threshold memory)), path⟩
  /-- The alarm has its threshold. -/
  set : ∃ a, s.stores.monitor.alarm? name = some a ∧ a.threshold = p.threshold memory
  /-- The service runs with what the cycle moved it to, unless another cycle has moved it
  on from there and had set the alarm by the time that this one did. -/
  current : (∃ running, s.stores.running? cluster service = some running ∧
      running.revision = target ∧ running.memory = memory) ∨
    ∃ j next size path, s.phase j =
        .finished ⟨.scaled target next size (.patched name (p.threshold size)), path⟩ ∧
      next ≠ target ∧ s.PatchedBefore name j k

/-- Any number of controllers with one rule for thresholds serve requests for one service
and one alarm, no call fails on its way, and all cycles are over. If any of them has set
the alarm, it is left with the threshold for a revision that a cycle moved the service
to. The service still runs with that revision, unless another cycle moved it on and set
the alarm first. -/
theorem set_by_last_patch {setup : Setup ι} {stores : Stores} {s : State ι}
    {p : ThresholdPolicy} {cluster service name : String}
    (reachable : Reachable setup stores s) (sound : stores.registry.Sound)
    (target : ∀ i, (setup.request i).cluster = cluster ∧ (setup.request i).service = service)
    (alarm : ∀ i, (setup.request i).alarm = name)
    (thresholds : ∀ i, (setup.rules (setup.controller i)).thresholds = p)
    (unfailing : ∀ e ∈ s.log, e.Unfailing) (finished : ∀ i, ∃ report, s.phase i = .finished report)
    (patched : ∃ i path source target memory name threshold,
      s.phase i = .finished ⟨.scaled source target memory (.patched name threshold), path⟩)
    (room : s.stores.registry.HasRoom) :
    ∃ k target memory, LeavesAlarm s p cluster service name k target memory := by
  obtain ⟨⟨first, logged, asked⟩, there⟩ := reachable.alarm_there alarm patched
  obtain ⟨newer, last, older, split, patches, none⟩ := Entry.exists_last_patch logged asked
  have member : last ∈ s.log := by simp [split]
  obtain ⟨report, ended⟩ := finished last.cycle
  obtain ⟨source, target', memory, path, a, found, exactly, rfl⟩ :=
    reachable.scaled_of_patch there member (unfailing last member) patches ended
  rw [thresholds] at exactly
  rw [exactly] at ended
  have standing : s.standing? setup last.cycle = _ := State.standing?_of_finished ended
  refine ⟨last.cycle, target', memory, ⟨source, path, ended⟩, ⟨a, ?_, exactly⟩, ?_⟩
  · rw [reachable.alarm_since newer last older split none]
    exact found
  · rcases reachable.bound_or_left _ _ source target' standing rfl with
      bound | ⟨e, moved, next, moves⟩
    · rw [(target _).1, (target _).2] at bound
      exact .inl (reachable.running_stems sound room (reachable.stems _ _ standing) bound)
    · -- the cycle that moved the service on has asked for its alarm, too
      obtain ⟨report, closed⟩ := finished e.cycle
      have told := State.exchange_mem_transcript moved
      have follows := reachable.follows_logged moved closed
      rw [(unfailing e moved).rebound moves] at told
      have onward := follows.moved_of_rebound _ _ _ _ told
      obtain ⟨threshold, reply, patch⟩ := follows.patch_of_moved onward
      rw [alarm] at patch
      obtain ⟨e', logged', cycle, exchange⟩ := State.of_mem_transcript patch
      have asked' : e'.Patches name := ⟨threshold, congrArg Exchange.call exchange⟩
      rw [← cycle] at closed
      obtain ⟨_, _, size, path', a', -, exactly', rfl⟩ :=
        reachable.scaled_of_patch there logged' (unfailing e' logged') asked' closed
      obtain ⟨rfl, rfl⟩ := Prod.mk.inj (Option.some.inj onward)
      rw [exactly', thresholds] at closed
      refine .inr ⟨e'.cycle, _, size, path', closed, moves.different.symm, newer, last, older,
        split, rfl, patches, none, e', ?_, rfl, asked'⟩
      rw [split] at logged'
      rcases List.mem_append.mp logged' with late | among
      · exact absurd asked' (none e' late)
      · rcases List.mem_cons.mp among with rfl | before
        · -- no cycle moves the service away from its own revision
          have same := closed.symm.trans ended
          simp only [Phase.finished.injEq, Report.mk.injEq, Outcome.scaled.injEq] at same
          exact absurd same.1.2.1.symm moves.different
        · exact before

/-- Calls that nothing befalls are made on the stores as they are. -/
theorem State.step?_unfailing {setup : Setup ι} {s s' : State ι} {move : Move ι}
    (due : s.step? setup move = some s')
    (undisturbed : ∀ i fault, move = .call i fault → fault = .none)
    (unfailing : ∀ e ∈ s.log, e.Unfailing) : ∀ e ∈ s'.log, e.Unfailing := by
  cases move with
  | arrive i =>
    simp only [step?] at due
    split at due
    · split at due <;> obtain rfl := Option.some.inj due <;> exact unfailing
    · cases due
  | call i fault =>
    obtain rfl := undisturbed i fault rfl
    simp only [step?] at due
    split at due
    · obtain rfl := Option.some.inj due
      intro e logged
      rcases List.mem_cons.mp logged with rfl | old
      · rfl
      · exact unfailing e old
    · cases due
  | take i =>
    simp only [step?] at due
    split at due
    · split at due <;> obtain rfl := Option.some.inj due <;> exact unfailing
    · cases due

theorem State.run?_unfailing {setup : Setup ι} {s s' : State ι} {moves : List (Move ι)}
    (due : s.run? setup moves = some s')
    (undisturbed : ∀ i fault, .call i fault ∈ moves → fault = .none)
    (unfailing : ∀ e ∈ s.log, e.Unfailing) : ∀ e ∈ s'.log, e.Unfailing := by
  induction moves generalizing s with
  | nil =>
    obtain rfl := Option.some.inj due
    exact unfailing
  | cons move rest ih =>
    obtain ⟨next, first, later⟩ := Option.bind_eq_some_iff.mp due
    refine ih later (fun i fault member => ?_) (State.step?_unfailing first (fun i fault here => ?_)
      unfailing)
    · exact undisturbed i fault (List.mem_cons_of_mem _ member)
    · exact undisturbed i fault (by rw [here]; exact List.mem_cons_self)

omit [DecidableEq ι] in
theorem turns_undisturbed {i j : ι} {n : Nat} {fault : Fault}
    (member : .call j fault ∈ turns i n) : fault = .none := by
  simp only [turns, List.mem_flatten, List.mem_replicate] at member
  obtain ⟨turn, ⟨-, rfl⟩, here⟩ := member
  simp only [List.mem_cons, Move.call.injEq, reduceCtorEq, List.not_mem_nil, or_false] at here
  exact here.2

/-- The service that both controllers serve, with an alarm set for what it runs with. -/
def crossingStores : Stores :=
  { contestStores with
    monitor := ({} : Monitor).insert
      { name := "memory", metric := .memoryUtilized, metricNamespace := "api", dimensions := []
        comparison := .greater, threshold := ({} : ThresholdPolicy).threshold 512 } }

/-- The first cycle moves the service and stops before its alarm; the second one moves the
service on and sets the alarm; then the first one sets it. -/
def crossingMoves : List (Move Bool) :=
  [.arrive false] ++ turns false 5 ++ [.arrive true] ++ turns true 6 ++ turns false 1

def crossingRun? : Option (State Bool) :=
  ({ stores := crossingStores } : State Bool).run? contest crossingMoves

theorem crossing_unfailing {s : State Bool} (ran : crossingRun? = some s) :
    ∀ e ∈ s.log, e.Unfailing := by
  refine State.run?_unfailing ran (fun i fault member => ?_) fun e logged => by cases logged
  simp only [crossingMoves, List.mem_append, List.mem_singleton, reduceCtorEq, false_or, or_false]
    at member
  rcases member with (first | second) | last
  · exact turns_undisturbed first
  · exact turns_undisturbed second
  · exact turns_undisturbed last

/-- Both cycles report that they have moved the service and set the alarm, which is left
with the threshold for 768 MiB while the service has 1024. -/
theorem crossing_ends {s : State Bool} (ran : crossingRun? = some s) :
    (∀ i, ∃ source target memory threshold path,
      s.phase i = .finished ⟨.scaled source target memory (.patched "memory" threshold), path⟩) ∧
    (∃ running, s.stores.running? "main" "api" = some running ∧ running.memory = 1024) ∧
    ∃ a, s.stores.monitor.alarm? "memory" = some a ∧
      a.threshold = ({} : ThresholdPolicy).threshold 768 := by
  have facts : crossingRun?.map (fun s => ((s.phase false).outcome?, (s.phase true).outcome?,
      (s.stores.running? "main" "api").map (·.memory),
      (s.stores.monitor.alarm? "memory").map (·.threshold))) =
      some (some (.scaled ⟨"api", 1⟩ ⟨"api", 2⟩ 768
          (.patched "memory" (({} : ThresholdPolicy).threshold 768))),
        some (.scaled ⟨"api", 2⟩ ⟨"api", 3⟩ 1024
          (.patched "memory" (({} : ThresholdPolicy).threshold 1024))),
        some 1024, some (({} : ThresholdPolicy).threshold 768)) := by
    decide +kernel
  rw [ran] at facts
  simp only [Option.map_some, Option.some.injEq, Prod.mk.injEq, Option.map_eq_some_iff] at facts
  obtain ⟨first, second, running, alarm⟩ := facts
  refine ⟨fun i => ?_, running, alarm⟩
  cases i with
  | false => exact ⟨_, _, _, _, Phase.of_outcome? first⟩
  | true => exact ⟨_, _, _, _, Phase.of_outcome? second⟩

theorem crossing_room {s : State Bool} (ran : crossingRun? = some s) :
    s.stores.registry.HasRoom := by
  intro family
  have start : (crossingStores.registry.history family).length ≤ 1 := by
    simp only [crossingStores, contestStores, Registry.append]
    split <;> simp
  have moves : crossingMoves.length = 26 := rfl
  refine State.run?_room ran (?_ : (crossingStores.registry.history family).length + _ < _)
  simp only [UInt32.size]
  omega

/-- The first cycle leaves the alarm with its threshold, as the second one was earlier. -/
theorem crossing_set_late : ∃ s k, crossingRun? = some s ∧
    (∃ running, s.stores.running? "main" "api" = some running ∧ running.memory = 1024) ∧
    ∃ target memory, LeavesAlarm s {} "main" "api" "memory" k target memory := by
  obtain ⟨s, ran⟩ := Option.isSome_iff_exists.mp (show crossingRun?.isSome by decide +kernel)
  obtain ⟨ended, running, -⟩ := crossing_ends ran
  obtain ⟨k, leaves⟩ := set_by_last_patch (Reachable.start.run ran) (Registry.Sound.empty.append _)
    (fun _ => ⟨rfl, rfl⟩) (fun _ => rfl) (fun _ => rfl) (crossing_unfailing ran)
    (fun i => by
      obtain ⟨_, _, _, _, _, closed⟩ := ended i
      exact ⟨_, closed⟩)
    (by
      obtain ⟨source, target, memory, threshold, path, closed⟩ := ended false
      exact ⟨false, path, source, target, memory, _, threshold, closed⟩)
    (crossing_room ran)
  exact ⟨s, k, ran, running, leaves⟩

/-- Nobody else writes, no call fails, and all cycles report that they have moved the
service and set its alarm; still the alarm has another threshold than the one for what
the service runs with. -/
theorem late_patch_stays : contest.controller.Injective ∧
    (∀ n, contest.rules n = {}) ∧ (∀ i, contest.request i = contest.request false) ∧
    crossingStores.BoundToLatest "main" "api" "api" ∧
    ∃ s, crossingRun? = some s ∧ Reachable contest crossingStores s ∧
      (∀ e ∈ s.log, e.Unfailing ∧ e.reply.isOk) ∧
      (∀ i, ∃ source target memory threshold path,
        s.phase i = .finished ⟨.scaled source target memory (.patched "memory" threshold), path⟩) ∧
      ∃ running a, s.stores.running? "main" "api" = some running ∧
        s.stores.monitor.alarm? "memory" = some a ∧
        a.threshold ≠ ({} : ThresholdPolicy).threshold running.memory := by
  refine ⟨?_, fun _ => rfl, fun _ => rfl, ⟨_, rfl, rfl⟩, ?_⟩
  · intro i j same
    cases i <;> cases j <;> first | rfl | exact absurd same (by decide)
  obtain ⟨s, ran⟩ := Option.isSome_iff_exists.mp (show crossingRun?.isSome by decide +kernel)
  obtain ⟨ended, ⟨running, runs, size⟩, a, found, exactly⟩ := crossing_ends ran
  have answered : crossingRun?.map (fun s => s.log.all (·.reply.isOk)) = some true := by
    decide +kernel
  rw [ran] at answered
  have oks := List.all_eq_true.mp (Option.some.inj answered)
  refine ⟨s, ran, Reachable.start.run ran, fun e logged => ?_, ended, running, a, runs, found, ?_⟩
  · exact ⟨crossing_unfailing ran e logged, oks e logged⟩
  · rw [exactly, size]
    decide +kernel

end Interleaving
end Headroom
