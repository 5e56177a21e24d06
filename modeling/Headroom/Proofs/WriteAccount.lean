import Headroom.Controller
import Headroom.Proofs.Effects
import Headroom.Proofs.Planning
import Headroom.Proofs.Transcript
import Mathlib.Tactic.ByContra

/-!
What one cycle writes, told from its outcome. The cycle shares its stores with others,
who may do anything to them before each of its calls. A call may fail or take too long,
and then it has no effect. Every change of the stores by the cycle is a `Write`, and
`writes_accounted` gives the writes of a whole run.
-/
namespace Headroom.WriteAccount

open Headroom.Cycle

/-- A change of the stores. -/
inductive Write where
  /-- An allocation at the end of its family. -/
  | append (a : Allocation)
  | bind (cluster service : String) (source target : Revision)
  | threshold (alarm : String) (value : Float)

/-- Binding a service to what it is bound to has no effect. -/
def Write.takesEffect : Write → Bool
  | .bind _ _ source target => source ≠ target
  | _ => true

/-- The writes that have an effect. -/
def effective (writes : List Write) : List Write := writes.filter Write.takesEffect

theorem effective_append (first second : List Write) :
    effective (first ++ second) = effective first ++ effective second :=
  List.filter_append first second

/-- The stores after a write. -/
def write (s : Stores) : Write → Stores
  | .append a =>
    { s with registry.history := fun family =>
        if family = a.family then s.registry.history family ++ [a] else s.registry.history family }
  | .bind cluster service _ target => { s with fleet := s.fleet.moved cluster service target }
  | .threshold alarm value => { s with monitor := s.monitor.patched alarm value }

/-- What a call writes when it is answered so. -/
def writes : Exchange → List Write
  | ⟨.register candidate, .ok new⟩ => [.append { candidate with number := new.number }]
  | ⟨.rebind cluster service source target, .ok ()⟩ => [.bind cluster service source target]
  | ⟨.patchAlarm alarm value, .ok ()⟩ => [.threshold alarm value]
  | _ => []

@[simp] theorem writes_error (call : Call) (error : Error) : writes ⟨call, .error error⟩ = [] := by
  cases call <;> rfl

/-- A call does nothing else than its writes. -/
theorem write_of_does {s after : Stores} {call : Call} {answer : call.Answer}
    (does : s.Does call answer after) : after = (writes ⟨call, .ok answer⟩).foldl write s := by
  cases does <;> rfl

/-- Nothing has changed but what serving a request may change: a family has grown, a
service is bound to another revision, and an alarm has another threshold. -/
structure Spares (r : Request) (s after : Stores) : Prop where
  families : ∀ family, family ≠ r.family →
    after.registry.history family = s.registry.history family
  revisions : s.registry.history r.family <+: after.registry.history r.family
  services : ∀ cluster service, ¬ (cluster = r.cluster ∧ service = r.service) →
    after.fleet.binding? cluster service = s.fleet.binding? cluster service
  binding : ∀ b, s.fleet.binding? r.cluster r.service = some b →
    ∃ active, after.fleet.binding? r.cluster r.service = some { b with active }
  unbound : s.fleet.binding? r.cluster r.service = none →
    after.fleet.binding? r.cluster r.service = none
  alarms : ∀ name, name ≠ r.alarm → after.monitor.alarm? name = s.monitor.alarm? name
  alarm : ∀ a, s.monitor.alarm? r.alarm = some a →
    ∃ threshold, after.monitor.alarm? r.alarm = some { a with threshold }
  unset : s.monitor.alarm? r.alarm = none → after.monitor.alarm? r.alarm = none
  published : after.monitor.published = s.monitor.published

theorem Spares.refl (r : Request) (s : Stores) : Spares r s s where
  families _ _ := rfl
  revisions := List.prefix_rfl
  services _ _ _ := rfl
  binding b found := ⟨b.active, found⟩
  unbound found := found
  alarms _ _ := rfl
  alarm a found := ⟨a.threshold, found⟩
  unset found := found
  published := rfl

/-- A call of a cycle spares what is not the request's; the candidate has to be of the
request's family. -/
theorem spares_of_does {r : Request} {s after : Stores} {stage : Stage}
    {answer : (stage.call r).Answer} (does : s.Does (stage.call r) answer after)
    (family : ∀ expected candidate, stage = .register expected candidate →
      candidate.family = r.family) : Spares r s after := by
  cases stage with
  | register expected candidate =>
    have own := family expected candidate rfl
    cases does
    refine { Spares.refl r s with families := fun family other => ?_, revisions := ?_ }
    · exact Registry.append_history_other s.registry candidate (by rwa [own])
    · exact Registry.GrowsTo.append s.registry candidate r.family
  | rebind expected new memory =>
    cases does
    refine { Spares.refl r s with services := ?_, binding := ?_, unbound := ?_ }
    · exact fun cluster service other => if_neg other
    · exact fun b found => ⟨new, by simp [Fleet.moved, found]⟩
    · exact fun none => by simp [Fleet.moved, none]
  | adjustAlarm expected new memory threshold =>
    cases does
    refine { Spares.refl r s with alarms := ?_, alarm := ?_, unset := ?_ }
    · exact fun name other => Monitor.alarm?_patched_other s.monitor threshold other
    · exact fun a found => ⟨threshold, by simp [Monitor.patched, found]⟩
    · exact fun none => by simp [Monitor.patched, none]
  | _ =>
    cases does
    exact Spares.refl r s

/-- A call of a cycle: the stores as its last call left them, as others have made them
since, and as this call left them. -/
structure Visit where
  found : Stores
  before : Stores
  call : Call
  reply : call.Reply
  after : Stores

def Visit.exchange (v : Visit) : Exchange := ⟨v.call, v.reply⟩

/-- Others have bound a service to a revision. -/
def Visit.Brought (v : Visit) (cluster service : String) (x : Revision) : Prop :=
  v.found.bound? cluster service ≠ some x ∧ v.before.bound? cluster service = some x

/-- The stores, and the calls of the cycle so far, oldest first. -/
structure World where
  stores : Stores
  visits : List Visit := []

/-- The world after a call. -/
def World.visited (w : World) (before : Stores) (call : Call) (reply : call.Reply)
    (after : Stores) : World :=
  ⟨after, w.visits ++ [⟨w.stores, before, call, reply, after⟩]⟩

/-- What happens to the calls of a cycle, in their order. -/
structure Script where
  /-- What others do to the stores before a call. -/
  others : Nat → Stores → Stores := fun _ s => s
  /-- The time in milliseconds before a call takes effect. -/
  delay : Nat → Nat := fun _ => 0
  error? : Nat → Option Error := fun _ => none

namespace Script

/-- A call that fails or takes too long has no effect. -/
def fault (script : Script) (retry : Retry.Settings) (call : Call) (place : Nat) : Fault :=
  if script.delay place ≤ retry.callTimeout then
    match script.error? place with
    | none => .none
    | some error => .refused error
  else .refused (retry.timeout call.operation.name)

/-- Make the next call. -/
def perform (script : Script) (retry : Retry.Settings) (w : World) (call : Call) :
    call.Reply × World :=
  let before := script.others w.visits.length w.stores
  let (reply, after) := before.attempt call (script.fault retry call w.visits.length)
  (reply, w.visited before call reply after)

theorem fault_heard (script : Script) (retry : Retry.Settings) (call : Call) (place : Nat)
    (error : Error) : script.fault retry call place ≠ .lost error := by
  unfold fault
  split
  · split <;> rintro ⟨⟩
  · rintro ⟨⟩

/-- A call fails without effect, or it is done. -/
theorem perform_cases (script : Script) (retry : Retry.Settings) (w : World) (call : Call) :
    ∃ before, before = script.others w.visits.length w.stores ∧
      ((∃ error, script.perform retry w call =
        (.error error, w.visited before call (.error error) before)) ∨
      ∃ answer after, before.Does call answer after ∧
        script.perform retry w call = (.ok answer, w.visited before call (.ok answer) after)) := by
  refine ⟨_, rfl, ?_⟩
  obtain ⟨error, failed⟩ | ⟨answer, after, done, does⟩ :=
    (script.others w.visits.length w.stores).attempt_cases call
      (script.fault_heard retry call w.visits.length)
  · exact .inl ⟨error, by simp only [perform, failed]⟩
  · exact .inr ⟨answer, after, does, by simp only [perform, done]⟩

end Script

/-- The allocation that a reply shows. -/
def described? : Exchange → Option Allocation
  | ⟨.describe _, .ok a⟩ => some a
  | _ => none

@[simp] theorem described?_error (call : Call) (error : Error) :
    described? ⟨call, .error error⟩ = none := by
  cases call <;> rfl

/-- The allocations that a cycle was shown. -/
def described (visits : List Visit) : List Allocation :=
  visits.filterMap fun v => described? v.exchange

/-- The writes of a cycle. -/
def written (visits : List Visit) : List Write := visits.flatMap fun v => writes v.exchange

section

variable (w : World) (before : Stores) (call : Call) (reply : call.Reply) (after : Stores)

@[simp] theorem described_visited : described (w.visited before call reply after).visits =
    described w.visits ++ (described? ⟨call, reply⟩).toList := by
  simp only [described, World.visited, List.filterMap_append]
  cases shown : described? ⟨call, reply⟩ <;> simp [Visit.exchange, shown]

@[simp] theorem written_visited : written (w.visited before call reply after).visits =
    written w.visits ++ writes ⟨call, reply⟩ := by
  simp [written, World.visited, Visit.exchange]

end

/-- A candidate of the request's family is planned from the one allocation that the
cycle was shown, which was the latest then. -/
structure Planned (rules : Rules) (r : Request) (visits : List Visit)
    (current candidate : Allocation) : Prop where
  described : described visits = [current]
  latest : ∃ v ∈ visits, v.exchange = ⟨.describe r.family, .ok current⟩ ∧
    (v.before.registry.history r.family).getLast? = some current
  plan : rules.sizing.plan current r.container = .ok (.scaleTo candidate)
  family : candidate.family = r.family

/-- What a cycle that went by `visits` has registered under a number: what it planned. -/
structure Registered (rules : Rules) (r : Request) (visits : List Visit) (new : Revision)
    (registered : Allocation) : Prop where
  planned : ∃ current candidate, Planned rules r visits current candidate ∧
    registered = { candidate with number := new.number }
  family : new.family = r.family

/-- Nobody else has bound the service of a request to a revision. -/
def Unbrought (r : Request) (visits : List Visit) (x : Revision) : Prop :=
  ∀ v ∈ visits, ¬ v.Brought r.cluster r.service x

/-- The service is not bound to a revision, unless that is where it was first or somebody
else has bound it so. -/
def Apart (r : Request) (w : World) (expected x : Revision) : Prop :=
  Unbrought r w.visits x → expected = x ∨ w.stores.bound? r.cluster r.service ≠ some x

/-- What has been written when a cycle comes to a stage. -/
def Entered (rules : Rules) (r : Request) (w : World) : Stage → Prop
  | .readBinding | .readAllocation _ => written w.visits = [] ∧ described w.visits = []
  | .confirmBinding _ candidate =>
    written w.visits = [] ∧ ∃ current, Planned rules r w.visits current candidate
  | .register expected candidate =>
    written w.visits = [] ∧ (∃ current, Planned rules r w.visits current candidate) ∧
      ∀ x, Apart r w expected x
  | .rebind expected new memory | .inspectBinding expected new memory _ =>
    ∃ registered, Registered rules r w.visits new registered ∧ registered.memory = memory ∧
      written w.visits = [.append registered] ∧ Apart r w expected new
  | .adjustAlarm expected new memory threshold =>
    ∃ registered, Registered rules r w.visits new registered ∧ registered.memory = memory ∧
      threshold = rules.thresholds.threshold memory ∧
      (Unbrought r w.visits new → effective (written w.visits) =
        effective [.append registered, .bind r.cluster r.service expected new])

/-- What has been written when a cycle has come to an outcome. -/
def Accounted (rules : Rules) (r : Request) (visits : List Visit) : Outcome → Prop
  | .saturated .. | .superseded _ none | .failed _ _ none => written visits = []
  | .superseded _ (some new) | .failed _ _ (some new) =>
    ∃ registered, Registered rules r visits new registered ∧
      written visits = [.append registered]
  | .scaled source new memory (.stale alarm _ _) =>
    ∃ registered, Registered rules r visits new registered ∧ registered.memory = memory ∧
      alarm = r.alarm ∧
      (Unbrought r visits new → effective (written visits) =
        effective [.append registered, .bind r.cluster r.service source new])
  | .scaled source new memory (.patched alarm threshold) =>
    ∃ registered, Registered rules r visits new registered ∧ registered.memory = memory ∧
      alarm = r.alarm ∧ threshold = rules.thresholds.threshold registered.memory ∧
      (Unbrought r visits new → effective (written visits) =
        effective [.append registered, .bind r.cluster r.service source new,
          .threshold r.alarm threshold])
  | .ignored _ => False

section

variable {rules : Rules} {r : Request} {w : World} {before after : Stores}

theorem Unbrought.of_visited {call : Call} {reply : call.Reply} {x : Revision}
    (unbrought : Unbrought r (w.visited before call reply after).visits x) :
    Unbrought r w.visits x ∧
      (before.bound? r.cluster r.service = some x →
        w.stores.bound? r.cluster r.service = some x) := by
  simp only [Unbrought, World.visited, List.mem_append, List.mem_singleton] at unbrought
  refine ⟨fun v visited => unbrought v (.inl visited), fun bound => ?_⟩
  by_contra other
  exact unbrought _ (.inr rfl) ⟨other, bound⟩

/-- A call that does not bind the service leaves it apart from a revision. -/
theorem Apart.visited {call : Call} {reply : call.Reply} {expected x : Revision}
    (apart : Apart r w expected x)
    (same : after.bound? r.cluster r.service = before.bound? r.cluster r.service) :
    Apart r (w.visited before call reply after) expected x := by
  intro unbrought
  obtain ⟨earlier, kept⟩ := unbrought.of_visited
  obtain here | away := apart earlier
  · exact .inl here
  · refine .inr fun bound => away (kept ?_)
    rw [← same]
    exact bound

/-- A service is found where it was first. -/
theorem Apart.of_bound {expected : Revision}
    (bound : w.stores.bound? r.cluster r.service = some expected) (x : Revision) :
    Apart r w expected x := by
  intro _
  by_cases same : expected = x
  · exact .inl same
  · refine .inr ?_
    rw [bound]
    simpa using same

theorem Planned.visited {current candidate : Allocation} {call : Call} {reply : call.Reply}
    (planned : Planned rules r w.visits current candidate)
    (silent : described? ⟨call, reply⟩ = none) :
    Planned rules r (w.visited before call reply after).visits current candidate := by
  obtain ⟨v, visited, shown⟩ := planned.latest
  refine { planned with described := ?_, latest := ⟨v, List.mem_append_left _ visited, shown⟩ }
  simp [planned.described, silent]

theorem Registered.visited {new : Revision} {registered : Allocation} {call : Call}
    {reply : call.Reply} (known : Registered rules r w.visits new registered)
    (silent : described? ⟨call, reply⟩ = none) :
    Registered rules r (w.visited before call reply after).visits new registered := by
  obtain ⟨current, candidate, planned, same⟩ := known.planned
  exact ⟨⟨current, candidate, planned.visited silent, same⟩, known.family⟩

/-- A call that fails has written nothing. -/
theorem Entered.failed {stage : Stage} (entered : Entered rules r w stage) (call : Call)
    (error : Error) : Entered rules r (w.visited before call (.error error) before) stage := by
  have silent := described?_error call error
  cases stage with
  | readBinding | readAllocation expected => simpa [Entered] using entered
  | confirmBinding expected candidate =>
    obtain ⟨nothing, current, planned⟩ := entered
    exact ⟨by simpa using nothing, current, planned.visited silent⟩
  | register expected candidate =>
    obtain ⟨nothing, ⟨current, planned⟩, apart⟩ := entered
    exact ⟨by simpa using nothing, ⟨current, planned.visited silent⟩,
      fun x => (apart x).visited rfl⟩
  | rebind expected new memory | inspectBinding expected new memory conflict =>
    obtain ⟨registered, known, size, once, apart⟩ := entered
    exact ⟨registered, known.visited silent, size, by simpa using once, apart.visited rfl⟩
  | adjustAlarm expected new memory threshold =>
    obtain ⟨registered, known, size, exactly, account⟩ := entered
    refine ⟨registered, known.visited silent, size, exactly, fun unbrought => ?_⟩
    simpa using account unbrought.of_visited.1

/-- What an answer leads to, when the call was done. -/
theorem Entered.answered {stage : Stage} (entered : Entered rules r w stage)
    (sound : before.registry.Sound) {answer : (stage.call r).Answer}
    (does : before.Does (stage.call r) answer after) {next : Stage ⊕ Outcome}
    (advance : Advance rules r stage (.ok answer) next) :
    next.elim (Entered rules r (w.visited before (stage.call r) (.ok answer) after))
      (Accounted rules r (w.visited before (stage.call r) (.ok answer) after).visits) := by
  cases advance with
  | bindingRead b => simpa [Entered, described?, writes] using entered
  | @planned current candidate expected plan =>
    obtain ⟨nothing, unseen⟩ := entered
    cases does with
    | readAllocation latest =>
      have family : current.family = r.family := sound.family (List.mem_of_getLast? latest)
      refine ⟨by simpa [writes] using nothing, current, ?_, ?_, plan, ?_⟩
      · simp [unseen, described?]
      · exact ⟨_, List.mem_append_right _ (List.mem_singleton_self _), rfl, latest⟩
      · exact (Sizing.Policy.plan_family plan).trans family
  | saturated expected plan => simpa [Accounted, writes] using entered.1
  | unplanned expected plan => simpa [Accounted, writes] using entered.1
  | @confirmed b expected candidate same =>
    obtain ⟨nothing, current, planned⟩ := entered
    cases does with
    | readBinding found =>
      refine ⟨by simpa [writes] using nothing, ⟨current, planned.visited rfl⟩, Apart.of_bound ?_⟩
      simp [World.visited, Stores.bound?, Fleet.bound?, found, same]
  | overtaken candidate detail moved => simpa [Accounted, writes] using entered.1
  | registered expected candidate new =>
    obtain ⟨nothing, ⟨current, planned⟩, apart⟩ := entered
    cases does
    refine ⟨{ candidate with number := before.registry.nextNumber candidate.family },
      ⟨⟨current, candidate, planned.visited rfl, rfl⟩, planned.family⟩, rfl, ?_,
      (apart _).visited rfl⟩
    simp [nothing, writes]
  | rebound expected new memory =>
    obtain ⟨registered, known, size, once, apart⟩ := entered
    refine ⟨registered, known.visited rfl, size, rfl, fun _ => ?_⟩
    simp [once, writes]
  | @applied b new expected memory conflict bound =>
    obtain ⟨registered, known, size, once, apart⟩ := entered
    refine ⟨registered, known.visited rfl, size, rfl, fun unbrought => ?_⟩
    cases does with
    | readBinding found =>
      -- Nobody can have bound the service to the new revision, so it was there at first.
      obtain ⟨earlier, kept⟩ := unbrought.of_visited
      obtain rfl | away := apart earlier
      · simp [once, writes, effective, Write.takesEffect, List.filter_cons]
      · exact absurd (kept (by simp [Stores.bound?, Fleet.bound?, found, bound])) away
  | beaten expected memory conflict detail moved =>
    obtain ⟨registered, known, -, once, -⟩ := entered
    exact ⟨registered, known.visited rfl, by simpa [writes] using once⟩
  | adjusted expected new memory threshold =>
    obtain ⟨registered, known, rfl, rfl, account⟩ := entered
    refine ⟨registered, known.visited rfl, rfl, rfl, rfl, fun unbrought => ?_⟩
    rw [written_visited, effective_append, account unbrought.of_visited.1, ← effective_append]
    rfl

/-- What a failure leads to, when it is not tried again. -/
theorem Entered.refused {stage : Stage} (entered : Entered rules r w stage) {error : Error}
    {next : Stage ⊕ Outcome} (advance : Advance rules r stage (.error error) next) :
    next.elim (Entered rules r (w.visited before (stage.call r) (.error error) before))
      (Accounted rules r (w.visited before (stage.call r) (.error error) before).visits) := by
  have entered : Entered rules r (w.visited before (stage.call r) (.error error) before) stage :=
    entered.failed (stage.call r) error
  cases advance with
  | contested expected new memory detail => exact entered
  | unbound expected new memory uncontested =>
    obtain ⟨registered, known, -, once, -⟩ := entered
    exact ⟨registered, known, once⟩
  | uninspected expected new memory conflict =>
    obtain ⟨registered, known, -, once, -⟩ := entered
    exact ⟨registered, known, once⟩
  | leftBehind expected new memory threshold =>
    obtain ⟨registered, known, size, -, account⟩ := entered
    exact ⟨registered, known, size, rfl, account⟩
  | _ => exact entered.1

end

/-- Every call finds the stores as the call before it has left them. -/
def Connected (first last : Stores) : List Visit → Prop
  | [] => last = first
  | v :: rest => v.found = first ∧ Connected v.after last rest

theorem Connected.visited {first : Stores} {w : World}
    (connected : Connected first w.stores w.visits) (before : Stores) (call : Call)
    (reply : call.Reply) (after : Stores) :
    Connected first after (w.visited before call reply after).visits := by
  obtain ⟨stores, visits⟩ := w
  simp only [World.visited] at connected ⊢
  induction visits generalizing first with
  | nil => exact ⟨connected, rfl⟩
  | cons v rest ih => exact ⟨connected.1, ih connected.2⟩

/-- A whole account of what has happened to the stores since a request came in. -/
structure Account (rules : Rules) (script : Script) (r : Request) (first : Stores) (w : World) :
    Prop where
  connected : Connected first w.stores w.visits
  others : ∀ i v, w.visits[i]? = some v → v.before = script.others i v.found
  /-- The cycle has changed nothing else than its writes say. -/
  exact : ∀ v ∈ w.visits, v.after = (writes v.exchange).foldl write v.before
  spares : ∀ v ∈ w.visits, Spares r v.before v.after

theorem Account.visited {rules : Rules} {script : Script} {r : Request} {first : Stores}
    {w : World} (account : Account rules script r first w) {before after : Stores} {call : Call}
    {reply : call.Reply} (others : before = script.others w.visits.length w.stores)
    (exact : after = (writes ⟨call, reply⟩).foldl write before) (spares : Spares r before after) :
    Account rules script r first (w.visited before call reply after) where
  connected := account.connected.visited before call reply after
  others i v visited := by
    obtain earlier | now := Nat.lt_or_ge i w.visits.length
    · rw [World.visited, List.getElem?_append_left earlier] at visited
      exact account.others i v visited
    · rw [World.visited, List.getElem?_append_right now] at visited
      simp only [List.getElem?_singleton, Option.ite_none_right_eq_some, Option.some.injEq]
        at visited
      obtain ⟨last, rfl⟩ := visited
      rw [show i = w.visits.length by omega]
      exact others
  exact v visited := by
    obtain old | new := List.mem_append.mp visited
    · exact account.exact v old
    · rw [List.mem_singleton.mp new]
      exact exact
  spares v visited := by
    obtain old | new := List.mem_append.mp visited
    · exact account.spares v old
    · rw [List.mem_singleton.mp new]
      exact spares

/-- What every call keeps. -/
structure Kept (rules : Rules) (script : Script) (r : Request) (first : Stores) (w : World)
    (standing : Standing) : Prop where
  sound : w.stores.registry.Sound
  request : ∀ c, standing = .due c → c.request = r
  account : Account rules script r first w
  stands : standing.Meets (Entered rules r w) (Accounted rules r w.visits)

theorem Kept.step {rules : Rules} {script : Script} {r : Request} {first : Stores} {w : World}
    {c : Course} (others : ∀ n s, s.registry.Sound → (script.others n s).registry.Sound)
    (kept : Kept rules script r first w (.due c)) :
    Kept rules script r first (script.perform rules.retry w c.call).2
      (c.answer rules (script.perform rules.retry w c.call).1).next.standing := by
  obtain rfl := kept.request c rfl
  have entered : Entered rules c.request w c.stage := kept.stands
  obtain ⟨before, since, made⟩ := script.perform_cases rules.retry w c.call
  have sound : before.registry.Sound := by
    rw [since]
    exact others _ _ kept.sound
  obtain ⟨error, failed⟩ | ⟨answer, after, does, done⟩ := made
  · have account : Account rules script c.request first
        (w.visited before c.call (.error error) before) :=
      kept.account.visited since (by simp) (.refl _ _)
    rw [failed]
    refine c.answer_cases rules _ ?_ ?_ ?_
    · intro detail _ _
      exact ⟨sound, by rintro _ ⟨⟩; rfl, account, entered.failed c.call error⟩
    · intro stage path advance _
      exact ⟨sound, by rintro _ ⟨⟩; rfl, account, entered.refused advance⟩
    · intro outcome path advance _
      exact ⟨sound, by rintro _ ⟨⟩, account, entered.refused advance⟩
  · have spares : Spares c.request before after := by
      refine spares_of_does does fun expected candidate stage => ?_
      rw [stage] at entered
      obtain ⟨_, ⟨_, planned⟩, _⟩ := entered
      exact planned.family
    have account := kept.account.visited since (write_of_does does) spares
    rw [done]
    refine c.answer_cases rules _ ?_ ?_ ?_
    · rintro detail ⟨⟩
    · intro stage path advance _
      exact ⟨does.sound sound, by rintro _ ⟨⟩; rfl, account, entered.answered sound does advance⟩
    · intro outcome path advance _
      exact ⟨does.sound sound, by rintro _ ⟨⟩, account, entered.answered sound does advance⟩

/-- Serve a request, unless its key is held. -/
def serve (f : InFlight) (rules : Rules) (script : Script) (stores : Stores) (r : Request) :
    Course.Finished World :=
  match f.take? r.key with
  | none =>
    let report := Controller.busyReport r
    ⟨report, Controller.reportEvents r.family report, { stores }⟩
  | some _ => Controller.serve rules (script.perform rules.retry) { stores } r

/-- A request whose service runs the first revision of its family. -/
def shared : Request :=
  { cluster := "main", service := "api", container := "api", family := "api", alarm := "memory" }

end Headroom.WriteAccount
