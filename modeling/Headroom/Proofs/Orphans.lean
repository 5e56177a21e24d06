import Headroom.Proofs.Registrations

/-!
What a reported orphan is worth, in a cycle that has its stores to itself. A report of a
cycle that was beaten is right: its service is not bound to what it registered. A report
of a failure is wrong just when a rebind took effect and the cycle had no answer from
then on (`orphan_bound_iff`): a later attempt that gets through, and a look at the binding
that does, find the service where it is. An outage that begins with the answer to the
rebind leaves it there unknown (`outage_hides_binding`).
-/
namespace Headroom

open Headroom.Cycle

/-- The revision of which a report says that nothing is bound to it. -/
def Cycle.Outcome.orphan? : Outcome → Option Revision
  | .superseded _ orphan | .failed _ _ orphan => orphan
  | .scaled .. | .saturated .. | .ignored _ => none

theorem Cycle.Outcome.named?_of_orphan? {outcome : Outcome} {new : Revision}
    (orphan : outcome.orphan? = some new) : outcome.named? = some new := by
  cases outcome with
  | superseded detail left => exact orphan
  | failed state error left => exact orphan
  | _ => cases orphan

namespace Interleaving

variable {ι : Type}

/-- The call bound a service to a revision. -/
def Entry.Binds (e : Entry ι) (cluster service : String) (new : Revision) : Prop :=
  ∃ source, e.call = .rebind cluster service source new ∧
    e.before.Moved e.after cluster service source new

/-- A cycle bound its service to a revision, and had no answer to that call or to any
call after it. -/
def BindsUnheard (setup : Setup ι) (log : List (Entry ι)) (i : ι) (new : Revision) : Prop :=
  ∃ newer e older, log = newer ++ e :: older ∧ e.cycle = i ∧
    e.Binds (setup.request i).cluster (setup.request i).service new ∧
    ∀ later ∈ newer ++ [e], later.cycle = i → later.reply.isOk = false

/-- No service is bound to another revision than at first, but perhaps that of a request. -/
def SparesOthers (r : Request) (first now : Stores) : Prop :=
  ∀ cluster service, ¬ (cluster = r.cluster ∧ service = r.service) →
    now.bound? cluster service = first.bound? cluster service

/-- Every service is bound as it was. -/
def Unmoved (first now : Stores) : Prop :=
  ∀ cluster service, now.bound? cluster service = first.bound? cluster service

/-- Before a cycle is to bind its service: no service has been moved, nor has it been tried. -/
structure Untouched (first now : Stores) (log : List (Entry ι)) : Prop where
  same : Unmoved first now
  untried : ∀ e ∈ log, e.call.operation ≠ .rebind

/-- How a cycle that is to bind its service to a revision has got on: no call of it has
moved the service, or one has and the cycle cannot know; moved once, the service stays. -/
structure Traced (setup : Setup ι) (first now : Stores) (log : List (Entry ι)) (i : ι)
    (new : Revision) : Prop where
  others : SparesOthers (setup.request i) first now
  own : now.bound? (setup.request i).cluster (setup.request i).service =
      first.bound? (setup.request i).cluster (setup.request i).service ∨
    BindsUnheard setup log i new
  stays : ∀ e ∈ log, e.Binds (setup.request i).cluster (setup.request i).service new →
    now.bound? (setup.request i).cluster (setup.request i).service = some new

/-- What has become of the services when a cycle is at a stage. -/
def StageMoved (setup : Setup ι) (first now : Stores) (log : List (Entry ι)) (i : ι) :
    Stage → Prop
  | .readBinding | .readAllocation _ | .confirmBinding .. | .register .. =>
    Untouched first now log
  | .rebind _ new _ | .inspectBinding _ new _ _ => Traced setup first now log i new
  | .adjustAlarm .. => True

/-- What has become of them at the end of a cycle that leaves an orphan. -/
def OutcomeMoved (setup : Setup ι) (first now : Stores) (log : List (Entry ι)) (i : ι) :
    Outcome → Prop
  | .superseded _ (some new) => Traced setup first now log i new ∧
    now.bound? (setup.request i).cluster (setup.request i).service ≠ some new
  | .failed _ _ (some new) => Traced setup first now log i new
  | _ => True

theorem OutcomeMoved.traced {setup : Setup ι} {first now : Stores} {log : List (Entry ι)} {i : ι}
    {outcome : Outcome} {new : Revision} (moved : OutcomeMoved setup first now log i outcome)
    (orphan : outcome.orphan? = some new) : Traced setup first now log i new := by
  cases outcome with
  | superseded detail left =>
    obtain rfl : left = some new := orphan
    exact moved.1
  | failed state error left =>
    obtain rfl : left = some new := orphan
    exact moved
  | _ => cases orphan

theorem Entry.Binds.rebinds {e : Entry ι} {cluster service : String} {new : Revision}
    (binds : e.Binds cluster service new) : e.call.operation = .rebind := by
  obtain ⟨source, call, -⟩ := binds
  rw [call]
  rfl

theorem BindsUnheard.logged {setup : Setup ι} {log : List (Entry ι)} {i : ι} {new : Revision}
    (unheard : BindsUnheard setup log i new) :
    ∃ e ∈ log, e.Binds (setup.request i).cluster (setup.request i).service new := by
  obtain ⟨newer, e, older, rfl, -, binds, -⟩ := unheard
  exact ⟨e, by simp, binds⟩

section

variable {setup : Setup ι} {first before after : Stores} {log : List (Entry ι)} {i : ι}
  {call : Call} {fault : Fault} {new : Revision}

/-- A call that fails brings no answer. -/
theorem BindsUnheard.failed (unheard : BindsUnheard setup log i new) (error : Error) :
    BindsUnheard setup (⟨i, call, .error error, before, after⟩ :: log) i new := by
  obtain ⟨newer, e, older, rfl, own, binds, silent⟩ := unheard
  refine ⟨⟨i, call, .error error, before, after⟩ :: newer, e, older, rfl, own, binds, ?_⟩
  intro later member
  obtain rfl | old := List.mem_cons.mp member
  · exact fun _ => rfl
  · exact silent later old

/-- Only a rebind moves a service. -/
theorem unmoved_of_attempted {reply : call.Reply}
    (attempted : before.Attempted call fault reply after) (other : call.operation ≠ .rebind) :
    Unmoved before after := by
  intro c v
  by_contra changed
  obtain ⟨source, target, rfl⟩ := attempted.rebinds changed
  exact other rfl

theorem Untouched.called (untouched : Untouched first before log) {reply : call.Reply}
    (attempted : before.Attempted call fault reply after) (other : call.operation ≠ .rebind) :
    Untouched first after (⟨i, call, reply, before, after⟩ :: log) where
  same c v := (unmoved_of_attempted attempted other c v).trans (untouched.same c v)
  untried := List.forall_mem_cons.mpr ⟨other, untouched.untried⟩

theorem Untouched.traced (untouched : Untouched first before log) :
    Traced setup first before log i new where
  others c v _ := untouched.same c v
  own := .inl (untouched.same _ _)
  stays e logged binds := absurd binds.rebinds (untouched.untried e logged)

/-- A failed call that moves no service. -/
theorem Traced.failed (traced : Traced setup first before log i new) (error : Error)
    (still : Unmoved before after) :
    Traced setup first after (⟨i, call, .error error, before, after⟩ :: log) i new where
  others c v other := (still c v).trans (traced.others c v other)
  own := traced.own.imp (still _ _).trans (·.failed error)
  stays e member binds := by
    obtain rfl | old := List.mem_cons.mp member
    · obtain ⟨source, -, moved⟩ := binds
      exact moved.now
    · exact (still _ _).trans (traced.stays e old binds)

/-- A rebind whose answer is lost. -/
theorem Traced.lost (traced : Traced setup first before log i new) (error : Error)
    {source : Revision}
    (rebinds : call = .rebind (setup.request i).cluster (setup.request i).service source new)
    (moved : before.Moved after (setup.request i).cluster (setup.request i).service source new) :
    Traced setup first after (⟨i, call, .error error, before, after⟩ :: log) i new where
  others c v other := (moved.others c v other).trans (traced.others c v other)
  own := by
    refine .inr ⟨[], ⟨i, call, .error error, before, after⟩, log, rfl, rfl,
      ⟨source, rebinds, moved⟩, ?_⟩
    intro later member _
    rw [List.mem_singleton.mp member]
    rfl
  stays _ _ _ := moved.now

/-- A failed call of a cycle that is about to bind its service, or to look at what it is
bound to. -/
theorem Traced.attempted {error : Error} (traced : Traced setup first before log i new)
    (rebinds : ∀ cluster service source target, call = .rebind cluster service source target →
      (cluster = (setup.request i).cluster ∧ service = (setup.request i).service) ∧ target = new)
    (attempted : before.Attempted call fault (.error error) after) :
    Traced setup first after (⟨i, call, .error error, before, after⟩ :: log) i new := by
  obtain still | ⟨_, grown, -⟩ | ⟨rebind, moves, -⟩ := footprint attempted
  · exact traced.failed error still
  · exact traced.failed error (by simp [Unmoved, grown, Stores.bound?])
  · obtain ⟨⟨rfl, rfl⟩, rfl⟩ := rebinds _ _ _ _ rebind
    exact traced.lost error rebind moves

/-- A cycle that sees its service bound to another revision has not bound it. -/
theorem Traced.beaten (traced : Traced setup first before log i new) {reply : call.Reply}
    (attempted : before.Attempted call fault reply after) (looks : call.operation ≠ .rebind)
    (away : after.bound? (setup.request i).cluster (setup.request i).service ≠ some new) :
    Traced setup first after (⟨i, call, reply, before, after⟩ :: log) i new := by
  have still := unmoved_of_attempted attempted looks
  have unbound : ∀ e ∈ log,
      ¬ e.Binds (setup.request i).cluster (setup.request i).service new :=
    fun e logged binds => away ((still _ _).trans (traced.stays e logged binds))
  refine ⟨fun c v other => (still c v).trans (traced.others c v other), .inl ?_, ?_⟩
  · obtain same | unheard := traced.own
    · exact (still _ _).trans same
    · obtain ⟨e, logged, binds⟩ := unheard.logged
      exact absurd binds (unbound e logged)
  · intro e member binds
    obtain rfl | old := List.mem_cons.mp member
    · exact absurd binds.rebinds looks
    · exact absurd binds (unbound e old)

/-- Every call leads to what is allowed where its reply takes the cycle. -/
theorem StageMoved.called {course : Course} {reply : course.call.Reply}
    (moved : StageMoved setup first before log i course.stage)
    (request : course.request = setup.request i)
    (attempted : before.Attempted course.call fault reply after) (rules : Rules) :
    (course.answer rules reply).next.standing.Meets
      (StageMoved setup first after (⟨i, course.call, reply, before, after⟩ :: log) i)
      (OutcomeMoved setup first after (⟨i, course.call, reply, before, after⟩ :: log) i) := by
  obtain ⟨r, stage, attempt, path⟩ := course
  subst request
  cases stage with
  | rebind expected new memory =>
    cases reply with
    | ok _ =>
      refine Course.answer_cases rules _ _ (by rintro _ ⟨⟩) ?_ ?_
      · rintro stage path ⟨⟩ _
        trivial
      · rintro outcome path ⟨⟩
    | error error =>
      have later := Traced.attempted moved (by rintro _ _ _ _ ⟨⟩; exact ⟨⟨rfl, rfl⟩, rfl⟩) attempted
      refine Course.answer_cases rules _ _ (fun _ _ _ => later) ?_ ?_
      · rintro stage path ⟨⟩ _
        exact later
      · rintro outcome path ⟨⟩ _
        exact later
  | inspectBinding expected new memory conflict =>
    cases reply with
    | ok b =>
      refine Course.answer_cases rules _ _ (by rintro _ ⟨⟩) ?_ ?_
      · rintro stage path ⟨⟩ _
        trivial
      · intro outcome path advance _
        cases advance with
        | beaten _ _ _ _ elsewhere =>
          have shown : after.fleet.binding? (setup.request i).cluster (setup.request i).service =
              some b := attempted.tells
          have away : after.bound? (setup.request i).cluster (setup.request i).service ≠
              some new := by
            simpa [Stores.bound?, Fleet.bound?, shown] using elsewhere
          exact ⟨Traced.beaten moved attempted (by rintro ⟨⟩) away, away⟩
    | error error =>
      have later := Traced.attempted moved (by rintro _ _ _ _ ⟨⟩) attempted
      refine Course.answer_cases rules _ _ (fun _ _ _ => later) ?_ ?_
      · rintro stage path ⟨⟩
      · rintro outcome path ⟨⟩ _
        exact later
  | adjustAlarm expected new memory threshold =>
    refine Course.answer_cases rules _ _ (fun _ _ _ => trivial) ?_ ?_
    · rintro stage path ⟨⟩
    · rintro outcome path ⟨⟩ _
      all_goals trivial
  | _ =>
    have later := Untouched.called (i := i) moved attempted (by rintro ⟨⟩)
    refine Course.answer_cases rules _ _ (fun _ _ _ => later) ?_ ?_
    · rintro stage path ⟨⟩ _
      first | exact later | exact later.traced
    · rintro outcome path ⟨⟩ _
      all_goals trivial

end

variable [DecidableEq ι]

/-- Nobody else has begun. -/
def State.Alone (setup : Setup ι) (s : State ι) (i : ι) : Prop :=
  ∀ j, j ≠ i → s.standing? setup j = none

section

variable {setup : Setup ι} {stores : Stores} {s : State ι} {i : ι}

/-- Where a cycle that has the stores to itself has got to with its service. -/
theorem Reachable.serviceMoved (reachable : Reachable setup stores s) (alone : s.Alone setup i) :
    (s.standing? setup i = none → Untouched stores s.stores s.log) ∧
      ∀ standing, s.standing? setup i = some standing →
        standing.Meets (StageMoved setup stores s.stores s.log i)
          (OutcomeMoved setup stores s.stores s.log i) := by
  revert alone
  refine reachable.invariant (P := fun s => s.Alone setup i →
    (s.standing? setup i = none → Untouched stores s.stores s.log) ∧
      ∀ standing, s.standing? setup i = some standing →
        standing.Meets (StageMoved setup stores s.stores s.log i)
          (OutcomeMoved setup stores s.stores s.log i)) ?_ ?_
  · exact fun _ => ⟨fun _ => ⟨fun _ _ => rfl, fun e logged => by cases logged⟩,
      fun standing here => by cases here⟩
  intro s s' reached moved step alone
  cases step.shift with
  | arrived j away here others same log =>
    obtain rfl : j = i := by
      by_contra other
      obtain busy | started := here
      · cases (alone j other).symm.trans busy
      · cases (alone j other).symm.trans started
    have untouched : Untouched stores s'.stores s'.log := by
      rw [same, log]
      exact (moved fun k other => (others k other).symm.trans (alone k other)).1 away
    refine ⟨fun _ => untouched, fun standing now => ?_⟩
    obtain busy | started := here
    · obtain rfl := Option.some.inj (busy.symm.trans now)
      trivial
    · obtain rfl := Option.some.inj (started.symm.trans now)
      exact untouched
  | called j course reply after calling fault attempted next =>
    subst next
    have here : (s.called j course reply after).standing? setup j =
        some (course.answer (setup.rules (setup.controller j)) reply).next.standing :=
      State.standing?_called_self j course reply after
    obtain rfl : j = i := by
      by_contra other
      cases (alone j other).symm.trans here
    have earlier : s.Alone setup j := fun k other =>
      (State.standing?_called_other other course reply after).symm.trans (alone k other)
    refine ⟨fun away => (by cases away.symm.trans here), fun standing now => ?_⟩
    obtain rfl := Option.some.inj (here.symm.trans now)
    exact ((moved earlier).2 _ calling).called (reached.request_eq calling) attempted _
  | quiet same stores log =>
    rw [stores, log, same]
    exact moved fun k other => (same k).symm.trans (alone k other)

/-- What a cycle is told it registered was new. -/
theorem Reachable.registered_fresh (reachable : Reachable setup stores s)
    (sound : stores.registry.Sound) (room : s.stores.registry.HasRoom) :
    ∀ j, ∀ new ∈ registered (s.transcript j), ¬ stores.registry.Holds new := by
  revert room
  refine reachable.invariant (P := fun s => s.stores.registry.HasRoom →
    ∀ j, ∀ new ∈ registered (s.transcript j), ¬ stores.registry.Holds new)
    (fun _ j new member => by cases member) ?_
  intro s s' reached fresh step room j new member
  obtain ⟨stores, log⟩ | ⟨i, course, reply, after, fault, calling, attempted, rfl⟩ :=
    step.call_or_still
  · rw [State.transcript_of_log log] at member
    exact fresh (by rwa [← stores]) j new member
  · have before : s.stores.registry.HasRoom := room.anti attempted.grows
    by_cases same : j = i
    · subst same
      rw [State.transcript_called_self, registered_append, List.mem_append, Option.mem_toList]
        at member
      obtain old | named := member
      · exact fresh before j new old
      · intro held
        obtain ⟨_, silent⟩ | ⟨candidate, -, name⟩ | ⟨-, -, silent⟩ := footprint attempted
        · cases silent.symm.trans named
        · obtain rfl := Option.some.inj (name.symm.trans named)
          exact (reached.sound sound).fresh before _ (held.mono reached.grown)
        · cases silent.symm.trans named
    · rw [State.transcript_called_other same] at member
      exact fresh before j new member

end

/-- What it means that a cycle reports a revision as an orphan. -/
structure OrphanStands (setup : Setup ι) (stores : Stores) (s : State ι) (i : ι)
    (outcome : Outcome) (new : Revision) : Prop where
  /-- A service is bound to it just when it was at the start, or when it is the cycle's own
  and the cycle bound it there without hearing of that or of anything after. -/
  bound_iff : ∀ cluster service, s.stores.bound? cluster service = some new ↔
    stores.bound? cluster service = some new ∨
      (cluster = (setup.request i).cluster ∧ service = (setup.request i).service) ∧
        BindsUnheard setup s.log i new
  /-- A cycle that reports that it was beaten has not bound its service to it. -/
  beaten : ∀ detail orphan, outcome = .superseded detail orphan →
    s.stores.bound? (setup.request i).cluster (setup.request i).service ≠ some new
  /-- No service was bound to it at the start, where services run registered revisions and
  the numbers are not used up. -/
  unused : stores.registry.Sound → stores.AllRegistered → s.stores.registry.HasRoom →
    ∀ cluster service, stores.bound? cluster service ≠ some new

/-- Whatever befalls the calls of a cycle that has the stores to itself, nothing is bound
to the orphan that it reports, unless a rebind took effect and the cycle had no answer
from then on, or something was bound to that revision before it was registered. -/
theorem orphan_bound_iff {setup : Setup ι} {stores : Stores} {s : State ι}
    (reachable : Reachable setup stores s) {i : ι} (alone : ∀ j, j ≠ i → s.phase j = .arriving)
    {report : Report} (finished : s.phase i = .finished report) {new : Revision}
    (orphan : report.outcome.orphan? = some new) :
    OrphanStands setup stores s i report.outcome new := by
  have here : s.standing? setup i = some (.ended report) := by
    simp only [State.standing?, finished]
  have alone : s.Alone setup i := fun j other => by simp only [State.standing?, alone j other]
  have moved : OutcomeMoved setup stores s.stores s.log i report.outcome :=
    (reachable.serviceMoved alone).2 _ here
  have recalls : report.outcome.Recalls (s.transcript i) := reachable.recalls here
  have traced := moved.traced orphan
  constructor
  case bound_iff =>
    intro cluster service
    by_cases own : cluster = (setup.request i).cluster ∧ service = (setup.request i).service
    · obtain ⟨rfl, rfl⟩ := own
      constructor
      · intro bound
        exact traced.own.imp (fun same => same.symm.trans bound) fun unheard =>
          ⟨⟨rfl, rfl⟩, unheard⟩
      · rintro (bound | ⟨-, unheard⟩)
        · obtain same | unheard := traced.own
          · exact same.trans bound
          · obtain ⟨e, logged, binds⟩ := unheard.logged
            exact traced.stays e logged binds
        · obtain ⟨e, logged, binds⟩ := unheard.logged
          exact traced.stays e logged binds
    · rw [traced.others cluster service own]
      simp [own]
  case beaten =>
    rintro detail left outcome
    rw [outcome] at orphan moved
    obtain rfl : left = some new := orphan
    exact moved.2
  case unused =>
    intro sound known room cluster service bound
    have named : new ∈ registered (s.transcript i) := by
      rw [Outcome.Recalls.named? recalls, Outcome.named?_of_orphan? orphan]
      exact List.mem_singleton_self _
    exact reachable.registered_fresh sound room i new named (known cluster service new bound)

/-- Nothing is bound to a revision that a report calls an orphan. -/
def State.OrphansUnbound (s : State ι) : Prop :=
  ∀ i report new, s.phase i = .finished report → report.outcome.orphan? = some new →
    ∀ cluster service, s.stores.bound? cluster service ≠ some new

/-- One controller, with the usual number of attempts. -/
def outage : Setup Unit where
  rules _ := {}
  controller _ := 0
  request _ :=
    { cluster := "main", service := "api", container := "api", family := "api", alarm := "memory" }

/-- The first attempt to bind the service does, and after that nothing gets through. -/
def outageMoves : List (Move Unit) :=
  [.arrive ()] ++ turns () 4 ++ [.call () (.lost (.transient "connection reset")), .take ()] ++
    (List.replicate 3 [.call () (.refused (.transient "unreachable")), .take ()]).flatten

def outageRun? : Option (State Unit) :=
  ({ stores := contestStores } : State Unit).run? outage outageMoves

theorem outage_fails {s : State Unit} (ran : outageRun? = some s) :
    (∃ path, s.phase () =
      .finished ⟨.failed .rebinding (.transient "unreachable") (some ⟨"api", 2⟩), path⟩) ∧
      s.stores.bound? "main" "api" = some ⟨"api", 2⟩ := by
  have facts : outageRun?.map (fun s =>
      ((s.phase ()).outcome?, s.stores.bound? "main" "api")) =
      some (some (.failed .rebinding (.transient "unreachable") (some ⟨"api", 2⟩)),
        some ⟨"api", 2⟩) := by decide +kernel
  rw [ran] at facts
  simp only [Option.map_some, Option.some.injEq, Prod.mk.injEq] at facts
  exact ⟨Phase.of_outcome? facts.1, facts.2⟩

theorem outage_orphan_stands : ∃ s path, outageRun? = some s ∧
    s.phase () =
      .finished ⟨.failed .rebinding (.transient "unreachable") (some ⟨"api", 2⟩), path⟩ ∧
    OrphanStands outage contestStores s ()
      (.failed .rebinding (.transient "unreachable") (some ⟨"api", 2⟩)) ⟨"api", 2⟩ := by
  obtain ⟨s, ran⟩ := Option.isSome_iff_exists.mp (show outageRun?.isSome by decide +kernel)
  obtain ⟨⟨path, ended⟩, -⟩ := outage_fails ran
  exact ⟨s, path, ran, ended,
    orphan_bound_iff (Reachable.start.run ran) (fun _ other => absurd rfl other) ended rfl⟩

/-- Nobody else writes; still a service is bound to the orphan of a report. -/
theorem outage_hides_binding : ∃ s, outageRun? = some s ∧ Reachable outage contestStores s ∧
    ¬ s.OrphansUnbound := by
  obtain ⟨s, ran⟩ := Option.isSome_iff_exists.mp (show outageRun?.isSome by decide +kernel)
  obtain ⟨⟨path, ended⟩, bound⟩ := outage_fails ran
  exact ⟨s, ran, Reachable.start.run ran, fun unbound => unbound () _ _ ended rfl _ _ bound⟩

end Interleaving
end Headroom
