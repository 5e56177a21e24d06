import Headroom.Cycle.Run

/-!
What a cycle makes of the replies to its calls, whatever the collaborators answer.
`Advance` lists the ways out of every stage, once for all proofs. A transcript is
the sequence of a cycle's calls with their replies; `Follows` says where it leads,
and `Follows.recalls` that the cycle goes by the first binding it was shown and by
the one revision it registered.
-/
namespace Headroom.Cycle

/-- What the settled reply to a stage's call leads to. -/
inductive Advance (rules : Rules) (r : Request) :
    (stage : Stage) → (stage.call r).Reply → Stage ⊕ Outcome → Prop where
  | bindingRead (b : Binding) :
      Advance rules r .readBinding (.ok b) (.inl (.readAllocation b.active))
  | bindingUnread (error : Error) :
      Advance rules r .readBinding (.error error) (.inr (.failed .describing error none))
  | planned {current candidate : Allocation} (expected : Revision)
      (plan : rules.sizing.plan current r.container = .ok (.scaleTo candidate)) :
      Advance rules r (.readAllocation expected) (.ok current)
        (.inl (.confirmBinding expected candidate))
  | saturated {current : Allocation} {memory ceiling : UInt32} (expected : Revision)
      (plan : rules.sizing.plan current r.container = .ok (.saturated memory ceiling)) :
      Advance rules r (.readAllocation expected) (.ok current)
        (.inr (.saturated current.revision memory ceiling))
  | unplanned {current : Allocation} {error : Error} (expected : Revision)
      (plan : rules.sizing.plan current r.container = .error error) :
      Advance rules r (.readAllocation expected) (.ok current)
        (.inr (.failed .computing error none))
  | allocationUnread (expected : Revision) (error : Error) :
      Advance rules r (.readAllocation expected) (.error error)
        (.inr (.failed .describing error none))
  | confirmed {b : Binding} {expected : Revision} (candidate : Allocation)
      (same : b.active = expected) :
      Advance rules r (.confirmBinding expected candidate) (.ok b)
        (.inl (.register expected candidate))
  | overtaken {b : Binding} {expected : Revision} (candidate : Allocation) (detail : String)
      (moved : b.active ≠ expected) :
      Advance rules r (.confirmBinding expected candidate) (.ok b)
        (.inr (.superseded detail none))
  | unconfirmed (expected : Revision) (candidate : Allocation) (error : Error) :
      Advance rules r (.confirmBinding expected candidate) (.error error)
        (.inr (.failed .registering error none))
  | registered (expected : Revision) (candidate : Allocation) (new : Revision) :
      Advance rules r (.register expected candidate) (.ok new)
        (.inl (.rebind expected new candidate.memory))
  | unregistered (expected : Revision) (candidate : Allocation) (error : Error) :
      Advance rules r (.register expected candidate) (.error error)
        (.inr (.failed .registering error none))
  | rebound (expected new : Revision) (memory : UInt32) :
      Advance rules r (.rebind expected new memory) (.ok ())
        (.inl (.adjustAlarm expected new memory (rules.thresholds.threshold memory)))
  | contested (expected new : Revision) (memory : UInt32) (detail : String) :
      Advance rules r (.rebind expected new memory) (.error (.conflict detail))
        (.inl (.inspectBinding expected new memory detail))
  | unbound {error : Error} (expected new : Revision) (memory : UInt32)
      (uncontested : ∀ detail, error ≠ .conflict detail) :
      Advance rules r (.rebind expected new memory) (.error error)
        (.inr (.failed .rebinding error (some new)))
  | applied {b : Binding} {new : Revision} (expected : Revision) (memory : UInt32)
      (conflict : String) (bound : b.active = new) :
      Advance rules r (.inspectBinding expected new memory conflict) (.ok b)
        (.inl (.adjustAlarm expected new memory (rules.thresholds.threshold memory)))
  | beaten {b : Binding} {new : Revision} (expected : Revision) (memory : UInt32)
      (conflict detail : String) (moved : b.active ≠ new) :
      Advance rules r (.inspectBinding expected new memory conflict) (.ok b)
        (.inr (.superseded detail (some new)))
  | uninspected (expected new : Revision) (memory : UInt32) (conflict : String) (error : Error) :
      Advance rules r (.inspectBinding expected new memory conflict) (.error error)
        (.inr (.failed .rebinding error (some new)))
  | adjusted (expected new : Revision) (memory : UInt32) (threshold : Float) :
      Advance rules r (.adjustAlarm expected new memory threshold) (.ok ())
        (.inr (.scaled expected new memory (.patched r.alarm threshold)))
  | leftBehind (expected new : Revision) (memory : UInt32) (threshold : Float) (error : Error) :
      Advance rules r (.adjustAlarm expected new memory threshold) (.error error)
        (.inr (.scaled expected new memory (.stale r.alarm threshold error)))

/-- The rules of `Advance` are all there are. -/
theorem Stage.advance (rules : Rules) (r : Request) (stage : Stage)
    (reply : (stage.call r).Reply) :
    Advance rules r stage reply (stage.settle rules r reply).next := by
  cases stage with
  | readBinding =>
    cases reply with
    | ok b => exact .bindingRead b
    | error error => exact .bindingUnread error
  | readAllocation expected =>
    cases reply with
    | ok current =>
      simp only [settle, Move.plan]
      split
      · exact .planned expected ‹_›
      · exact .saturated expected ‹_›
      · exact .unplanned expected ‹_›
    | error error => exact .allocationUnread expected error
  | confirmBinding expected candidate =>
    cases reply with
    | ok b =>
      simp only [settle]
      split
      · exact .confirmed candidate ‹_›
      · exact .overtaken candidate _ ‹_›
    | error error => exact .unconfirmed expected candidate error
  | register expected candidate =>
    cases reply with
    | ok new => exact .registered expected candidate new
    | error error => exact .unregistered expected candidate error
  | rebind expected new memory =>
    cases reply with
    | ok _ => exact .rebound expected new memory
    | error error =>
      cases error with
      | conflict detail => exact .contested expected new memory detail
      | _ => exact .unbound expected new memory (by rintro _ ⟨⟩)
  | inspectBinding expected new memory conflict =>
    cases reply with
    | ok b =>
      simp only [settle]
      split
      · exact .applied expected memory conflict ‹_›
      · exact .beaten expected memory conflict _ ‹_›
    | error error => exact .uninspected expected new memory conflict error
  | adjustAlarm expected new memory threshold =>
    cases reply with
    | ok _ => exact .adjusted expected new memory threshold
    | error error => exact .leftBehind expected new memory threshold error

/-- Only one stage rebinds, and it rebinds the service of the request. -/
theorem Stage.of_call_rebind {stage : Stage} {r : Request} {cluster service : String}
    {source target : Revision} (rebinds : stage.call r = .rebind cluster service source target) :
    (r.cluster = cluster ∧ r.service = service) ∧
      ∃ memory, stage = .rebind source target memory := by
  cases stage <;> cases rebinds
  exact ⟨⟨rfl, rfl⟩, _, rfl⟩

/-- Only one stage registers, and it registers its candidate. -/
theorem Stage.of_call_register {stage : Stage} {r : Request} {candidate : Allocation}
    (registers : stage.call r = .register candidate) :
    ∃ expected, stage = .register expected candidate := by
  cases stage <;> cases registers
  exact ⟨_, rfl⟩

/-- Only one stage patches an alarm, that of its request. -/
theorem Stage.of_call_patchAlarm {stage : Stage} {r : Request} {name : String}
    {threshold : Float} (patches : stage.call r = .patchAlarm name threshold) :
    ∃ expected new memory, stage = .adjustAlarm expected new memory threshold := by
  cases stage <;> cases patches
  exact ⟨_, _, _, rfl⟩

/-- Where a cycle is after a reply: due to make a call, or over. -/
inductive Standing where
  | due (course : Course)
  | ended (report : Report)
  deriving DecidableEq, Repr

namespace Standing

/-- A property of the stage that a cycle is due at, or of the outcome it ended with. -/
def Meets (atStage : Stage → Prop) (atEnd : Outcome → Prop) : Standing → Prop
  | due course => atStage course.stage
  | ended report => atEnd report.outcome

end Standing

/-- The move of its service that a cycle takes to be made: from which revision to which. -/
def Stage.moved? : Stage → Option (Revision × Revision)
  | .adjustAlarm expected new _ _ => some (expected, new)
  | _ => none

def Outcome.moved? : Outcome → Option (Revision × Revision)
  | .scaled previous new _ _ => some (previous, new)
  | _ => none

def Standing.moved? : Standing → Option (Revision × Revision)
  | due course => course.stage.moved?
  | ended report => report.outcome.moved?

def Course.Next.standing : Course.Next → Standing
  | .again _ course | .proceed course => .due course
  | .finish report => .ended report

/-- Where a reply takes a cycle. A transient failure may leave it where it is, one
attempt further; any other reply takes it on. -/
theorem Course.answer_cases {motive : Standing → Prop} (rules : Rules) (c : Course)
    (reply : c.call.Reply)
    (again : ∀ detail, reply = .error (.transient detail) → c.attempt < rules.retry.attempts →
      motive (.due { c with attempt := c.attempt + 1 }))
    (proceed : ∀ stage path, Advance rules c.request c.stage reply (.inl stage) →
      (∀ detail, reply = .error (.transient detail) → rules.retry.attempts ≤ c.attempt) →
      motive (.due { request := c.request, stage, path }))
    (finish : ∀ outcome path, Advance rules c.request c.stage reply (.inr outcome) →
      (∀ detail, reply = .error (.transient detail) → rules.retry.attempts ≤ c.attempt) →
      motive (.ended { outcome, path })) :
    motive (c.answer rules reply).next.standing := by
  unfold answer
  split
  · rename_i tries
    cases reply with
    | ok _ => simp [triesAgain] at tries
    | error error =>
      simp only [triesAgain, Retry.Settings.triesAgain, Bool.and_eq_true, decide_eq_true_eq]
        at tries
      cases error with
      | transient detail => exact again detail rfl tries.2
      | _ => simp [Error.isTransient] at tries
  · rename_i settles
    have spent : ∀ detail, reply = .error (.transient detail) →
        rules.retry.attempts ≤ c.attempt := by
      rintro detail rfl
      simpa [triesAgain, Retry.Settings.triesAgain, Error.isTransient] using settles
    have next := c.stage.advance rules c.request reply
    simp only [move]
    split
    · rename_i stage proceeds
      rw [proceeds] at next
      exact proceed stage _ next spent
    · rename_i outcome finishes
      rw [finishes] at next
      exact finish outcome _ next spent

section

variable {σ : Type} {rules : Rules} {perform : σ → (call : Call) → call.Reply × σ}

theorem Course.run_of_ended {world : σ} {c : Course} {report : Report}
    (ends : (c.answer rules (perform world c.call).1).next.standing = .ended report) :
    c.run rules perform world =
      ⟨report, (c.answer rules (perform world c.call).1).events, (perform world c.call).2⟩ := by
  rw [run]
  dsimp only
  split
  · rename_i given finishes
    rw [finishes] at ends
    rw [Standing.ended.inj ends]
  · rename_i goes
    rw [goes] at ends
    cases ends
  · rename_i goes
    rw [goes] at ends
    cases ends

theorem Course.run_of_due {world : σ} {c next : Course}
    (goes : (c.answer rules (perform world c.call).1).next.standing = .due next) :
    c.run rules perform world =
      { next.run rules perform (perform world c.call).2 with
        events := (c.answer rules (perform world c.call).1).events ++
          (next.run rules perform (perform world c.call).2).events } := by
  rw [run]
  dsimp only
  split
  · rename_i finishes
    rw [finishes] at goes
    cases goes
  · rename_i proceeds
    rw [proceeds] at goes
    rw [Standing.due.inj goes]
  · rename_i proceeds
    rw [proceeds] at goes
    rw [Standing.due.inj goes]

/-- Induction over a run: by the reply it is over, or it goes on with another course. -/
theorem Course.run_induction (rules : Rules) (perform : σ → (call : Call) → call.Reply × σ)
    {motive : σ → Course → Prop}
    (ended : ∀ world c report,
      (c.answer rules (perform world c.call).1).next.standing = .ended report → motive world c)
    (due : ∀ world c next,
      (c.answer rules (perform world c.call).1).next.standing = .due next →
        motive (perform world c.call).2 next → motive world c)
    (world : σ) (c : Course) : motive world c := by
  fun_induction run rules perform world c with
  | case1 world c reply world' performed turn report taken =>
    refine ended world c report ?_
    rw [performed, show (c.answer rules reply).next = .finish report from taken]
    rfl
  | case2 world c reply world' performed turn pause next taken ih =>
    refine due world c next ?_ (by rwa [performed])
    rw [performed, show (c.answer rules reply).next = .again pause next from taken]
    rfl
  | case3 world c reply world' performed turn next taken ih =>
    refine due world c next ?_ (by rwa [performed])
    rw [performed, show (c.answer rules reply).next = .proceed next from taken]
    rfl

/-- What every call and its reply keep holds at the end of a run. -/
theorem Course.run_keeps {P : σ → Standing → Prop}
    (step : ∀ world c, P world (.due c) →
      P (perform world c.call).2 (c.answer rules (perform world c.call).1).next.standing)
    (world : σ) (c : Course) (start : P world (.due c)) :
    P (c.run rules perform world).world (.ended (c.run rules perform world).report) := by
  induction world, c using Course.run_induction rules perform with
  | ended world c report ends =>
    rw [run_of_ended ends]
    exact ends ▸ step world c start
  | due world c next goes ih =>
    rw [run_of_due goes]
    exact ih (goes ▸ step world c start)

/-- The end of a run that takes no more than so many calls. -/
def Course.runWithin? (rules : Rules) (perform : σ → (call : Call) → call.Reply × σ) :
    Nat → σ → Course → Option (σ × Report)
  | 0, _, _ => none
  | calls + 1, world, c =>
    match (c.answer rules (perform world c.call).1).next.standing with
    | .ended report => some ((perform world c.call).2, report)
    | .due next => next.runWithin? rules perform calls (perform world c.call).2

theorem Course.run_of_runWithin? {calls : Nat} {world last : σ} {c : Course} {report : Report}
    (ends : c.runWithin? rules perform calls world = some (last, report)) :
    (c.run rules perform world).world = last ∧ (c.run rules perform world).report = report := by
  induction calls generalizing world c with
  | zero => cases ends
  | succ calls ih =>
    unfold runWithin? at ends
    split at ends
    · rename_i given ended
      obtain ⟨rfl, rfl⟩ := Prod.mk.inj (Option.some.inj ends)
      rw [run_of_ended ended]
      exact ⟨rfl, rfl⟩
    · rename_i next goes
      rw [run_of_due goes]
      exact ih ends

end

/-- A call with its reply. -/
structure Exchange where
  call : Call
  reply : call.Reply

namespace Exchange

/-- The binding that a reply shows. -/
def binding? : Exchange → Option Binding
  | ⟨.describeBinding _ _, .ok b⟩ => some b
  | _ => none

/-- The revision that a reply names as registered. -/
def registered? : Exchange → Option Revision
  | ⟨.register _, .ok new⟩ => some new
  | _ => none

@[simp] theorem binding?_error (call : Call) (error : Error) :
    binding? ⟨call, .error error⟩ = none := by
  cases call <;> rfl

@[simp] theorem registered?_error (call : Call) (error : Error) :
    registered? ⟨call, .error error⟩ = none := by
  cases call <;> rfl

theorem of_registered? {x : Exchange} {new : Revision} (named : x.registered? = some new) :
    ∃ candidate, x = ⟨.register candidate, .ok new⟩ := by
  unfold registered? at named
  split at named
  · cases named
    exact ⟨_, rfl⟩
  · cases named

end Exchange

/-- The revision that a transcript, oldest exchange first, shows the service bound to
at first. -/
def expected? (transcript : List Exchange) : Option Revision :=
  (transcript.findSome? Exchange.binding?).map (·.active)

/-- The revisions that a transcript names as registered. -/
def registered (transcript : List Exchange) : List Revision :=
  transcript.filterMap Exchange.registered?

theorem expected?_append (transcript : List Exchange) (x : Exchange) :
    expected? (transcript ++ [x]) = (expected? transcript).or (x.binding?.map (·.active)) := by
  unfold expected?
  rw [List.findSome?_append]
  cases transcript.findSome? Exchange.binding? <;> simp [List.findSome?_singleton]

theorem registered_append (transcript : List Exchange) (x : Exchange) :
    registered (transcript ++ [x]) = registered transcript ++ x.registered?.toList := by
  unfold registered
  rw [List.filterMap_append]
  cases found : x.registered? <;> simp [found]

/-- The first binding shown stays the first. -/
theorem expected?_of_prefix {earlier later : List Exchange} (grown : earlier <+: later)
    {v : Revision} (shown : expected? earlier = some v) : expected? later = some v := by
  obtain ⟨b, found, active⟩ := Option.map_eq_some_iff.mp shown
  unfold expected?
  rw [grown.findSome?_eq_some found, Option.map_some, active]

theorem registered_of_prefix {earlier later : List Exchange} (grown : earlier <+: later)
    {v : Revision} (named : v ∈ registered earlier) : v ∈ registered later :=
  (grown.filterMap Exchange.registered?).subset named

/-- A transcript of a request's cycle, and where it leads. -/
inductive Follows (rules : Rules) (r : Request) : List Exchange → Standing → Prop where
  | start : Follows rules r [] (.due (Course.start r))
  | answer {transcript : List Exchange} {c : Course} (reply : c.call.Reply)
      (before : Follows rules r transcript (.due c)) :
      Follows rules r (transcript ++ [⟨c.call, reply⟩]) (c.answer rules reply).next.standing

/-- What a stage holds of the transcript that led to it. -/
def Stage.Recalls (transcript : List Exchange) : Stage → Prop
  | .readBinding => expected? transcript = none ∧ registered transcript = []
  | .readAllocation expected | .confirmBinding expected _ | .register expected _ =>
    expected? transcript = some expected ∧ registered transcript = []
  | .rebind expected new _ | .inspectBinding expected new _ _ | .adjustAlarm expected new _ _ =>
    expected? transcript = some expected ∧ registered transcript = [new]

/-- What an outcome holds of the transcript that led to it. The orphan is what was
registered. -/
def Outcome.Recalls (transcript : List Exchange) : Outcome → Prop
  | .scaled previous new _ _ =>
    expected? transcript = some previous ∧ registered transcript = [new]
  | .saturated .. => registered transcript = []
  | .superseded _ orphan | .failed _ _ orphan => registered transcript = orphan.toList
  | .ignored _ => False

theorem Stage.Recalls.again {transcript : List Exchange} {stage : Stage}
    (recalls : stage.Recalls transcript) (call : Call) (error : Error) :
    stage.Recalls (transcript ++ [⟨call, .error error⟩]) := by
  have expected : expected? (transcript ++ [⟨call, .error error⟩]) = expected? transcript := by
    simp [expected?_append]
  have registered : registered (transcript ++ [⟨call, .error error⟩]) = registered transcript := by
    simp [registered_append]
  cases stage <;> simpa only [Recalls, expected, registered] using recalls

theorem Advance.recalls_stage {rules : Rules} {r : Request} {stage next : Stage}
    {reply : (stage.call r).Reply} {transcript : List Exchange}
    (advance : Advance rules r stage reply (.inl next)) (recalls : stage.Recalls transcript) :
    next.Recalls (transcript ++ [⟨stage.call r, reply⟩]) := by
  cases advance <;>
    simp_all [Stage.Recalls, expected?_append, registered_append, Exchange.binding?,
      Exchange.registered?]

theorem Advance.recalls_outcome {rules : Rules} {r : Request} {stage : Stage}
    {outcome : Outcome} {reply : (stage.call r).Reply} {transcript : List Exchange}
    (advance : Advance rules r stage reply (.inr outcome)) (recalls : stage.Recalls transcript) :
    outcome.Recalls (transcript ++ [⟨stage.call r, reply⟩]) := by
  cases advance <;>
    simp_all [Stage.Recalls, Outcome.Recalls, expected?_append, registered_append,
      Exchange.binding?, Exchange.registered?]

namespace Follows

variable {rules : Rules} {r : Request} {transcript : List Exchange}

/-- A course serves the request that it was started for. -/
theorem request_eq {standing : Standing} (follows : Follows rules r transcript standing) :
    ∀ c, standing = .due c → c.request = r := by
  induction follows with
  | start =>
    rintro c ⟨⟩
    rfl
  | @answer transcript c reply _ ih =>
    have here := ih c rfl
    refine Course.answer_cases (motive := fun standing => ∀ d, standing = .due d → d.request = r)
      rules c reply ?_ ?_ ?_
    · rintro detail - - _ ⟨⟩
      exact here
    · rintro stage path - - _ ⟨⟩
      exact here
    · rintro outcome path - - _ ⟨⟩

/-- A cycle goes by the first binding that it was shown, and by the one revision that
it has been told is registered. -/
theorem recalls {standing : Standing} (follows : Follows rules r transcript standing) :
    standing.Meets (Stage.Recalls transcript) (Outcome.Recalls transcript) := by
  induction follows with
  | start => exact ⟨rfl, rfl⟩
  | @answer transcript c reply before ih =>
    have here : c.stage.Recalls transcript := ih
    refine c.answer_cases rules reply ?_ ?_ ?_
    · rintro detail rfl -
      exact here.again c.call _
    · intro stage path advance _
      exact advance.recalls_stage here
    · intro outcome path advance _
      exact advance.recalls_outcome here

/-- No cycle is told of more than one registered revision. -/
theorem registered_length {standing : Standing} (follows : Follows rules r transcript standing) :
    (registered transcript).length ≤ 1 := by
  have recalls := follows.recalls
  cases standing with
  | due course =>
    cases stage : course.stage <;> simp_all [Standing.Meets, Stage.Recalls]
  | ended report =>
    cases outcome : report.outcome with
    | superseded _ orphan | failed _ _ orphan =>
      cases orphan <;> simp_all [Standing.Meets, Outcome.Recalls]
    | _ => simp_all [Standing.Meets, Outcome.Recalls]

/-- A revision that has been registered is the only one. -/
theorem registered_eq {standing : Standing} (follows : Follows rules r transcript standing)
    {new : Revision} (named : new ∈ registered transcript) : registered transcript = [new] := by
  obtain ⟨only, names⟩ := List.length_eq_one_iff.mp
    (Nat.le_antisymm follows.registered_length (List.length_pos_of_mem named))
  rw [names, List.mem_singleton] at named
  rw [names, named]

/-- Every rebind is from the revision shown first to the one registered. -/
theorem rebinds {standing : Standing} (follows : Follows rules r transcript standing) :
    ∀ x ∈ transcript, ∀ cluster service source target,
      x.call = .rebind cluster service source target →
      (cluster = r.cluster ∧ service = r.service) ∧
        expected? transcript = some source ∧ registered transcript = [target] := by
  induction follows with
  | start => exact fun x member => by cases member
  | @answer transcript c reply before ih =>
    have after := Follows.answer reply before
    have grown : transcript <+: transcript ++ [⟨c.call, reply⟩] := List.prefix_append _ _
    intro x member cluster service source target rebinds
    obtain old | new := List.mem_append.mp member
    · obtain ⟨here, shown, named⟩ := ih x old cluster service source target rebinds
      refine ⟨here, expected?_of_prefix grown shown, after.registered_eq ?_⟩
      exact registered_of_prefix grown (by rw [named]; exact List.mem_singleton_self _)
    · rw [List.mem_singleton.mp new] at rebinds
      obtain ⟨⟨rfl, rfl⟩, memory, stage⟩ := Stage.of_call_rebind rebinds
      have recalls : c.stage.Recalls transcript := before.recalls
      rw [stage] at recalls
      rw [before.request_eq c rfl]
      refine ⟨⟨rfl, rfl⟩, expected?_of_prefix grown recalls.1, after.registered_eq ?_⟩
      exact registered_of_prefix grown (by rw [recalls.2]; exact List.mem_singleton_self _)

end Follows
end Headroom.Cycle
