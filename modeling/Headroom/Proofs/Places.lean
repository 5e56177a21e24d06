import Headroom.Proofs.Effects
import Headroom.Proofs.Transcript

/-!
What a call reads and writes. The stores are made of places: the history of a family, the
binding of a service, an alarm. A call has one place. Its reply and what it leaves there
are settled by what is there (`Stores.attempt_alike`), and it leaves all other places as
they are (`Stores.attempt_elsewhere`). Only the log of rollouts is shared: calls add to
it, and none reads it. The places of a cycle's calls belong to its request
(`Stage.place_owned`).
-/
namespace Headroom

open Headroom.Cycle

inductive Place where
  | family (name : String)
  | service (cluster name : String)
  | alarm (name : String)
  deriving DecidableEq

/-- The place that a call reads or writes. -/
def Call.place : Call → Place
  | .describeBinding cluster service | .rebind cluster service _ _ => .service cluster service
  | .describe family => .family family
  | .register candidate => .family candidate.family
  | .patchAlarm alarm _ => .alarm alarm

namespace Stores

/-- Two stores hold the same at a place. -/
def SameAt (s t : Stores) : Place → Prop
  | .family name => s.registry.history name = t.registry.history name
  | .service cluster name => s.fleet.binding? cluster name = t.fleet.binding? cluster name
  | .alarm name => s.monitor.alarm? name = t.monitor.alarm? name

namespace SameAt

theorem refl (s : Stores) (p : Place) : s.SameAt s p := by
  cases p <;> rfl

theorem symm {s t : Stores} {p : Place} (same : s.SameAt t p) : t.SameAt s p := by
  cases p <;> exact Eq.symm same

theorem trans {s t u : Stores} {p : Place} (same : s.SameAt t p) (same' : t.SameAt u p) :
    s.SameAt u p := by
  cases p <;> exact Eq.trans same same'

end SameAt

/-- The same call, made on two stores, with its reply and the stores afterwards. -/
structure MadeAlike (s t : Stores) (call : Call) (made made' : call.Reply × Stores) : Prop where
  reply : made.1 = made'.1
  /-- What was the same stays the same. -/
  kept : ∀ p, s.SameAt t p → made.2.SameAt made'.2 p
  rollouts : ∃ placed, made.2.fleet.rollouts = s.fleet.rollouts ++ placed ∧
    made'.2.fleet.rollouts = t.fleet.rollouts ++ placed

variable {s t : Stores} {call : Call}

/-- A call that leaves both stores alone. -/
theorem MadeAlike.still {reply reply' : call.Reply} (same : reply = reply') :
    MadeAlike s t call (reply, s) (reply', t) where
  reply := same
  kept _ same := same
  rollouts := ⟨[], by simp⟩

theorem perform_alike (same : s.SameAt t call.place) :
    MadeAlike s t call (s.perform call) (t.perform call) := by
  cases call with
  | describeBinding cluster service =>
    have here : s.fleet.binding? cluster service = t.fleet.binding? cluster service := same
    exact .still (by simp only [Fleet.describe, here])
  | describe family =>
    have here : s.registry.history family = t.registry.history family := same
    exact .still (by simp only [Registry.describe, here])
  | register candidate =>
    have here : s.registry.history candidate.family = t.registry.history candidate.family := same
    simp only [perform, Registry.register]
    cases Registry.refusal? candidate with
    | some error => exact .still rfl
    | none =>
      constructor
      · simp only [Registry.nextNumber, here]
      · intro p same
        cases p with
        | family name =>
          have there : s.registry.history name = t.registry.history name := same
          simp only [SameAt, Registry.append, Registry.nextNumber, here, there]
        | service cluster name => exact same
        | alarm name => exact same
      · exact ⟨[], by simp⟩
  | rebind cluster service expected desired =>
    have here : s.fleet.binding? cluster service = t.fleet.binding? cluster service := same
    simp only [perform, Fleet.rebind, here]
    cases t.fleet.binding? cluster service with
    | none => exact .still rfl
    | some b =>
      by_cases bound : b.active = expected
      · simp only [bound, if_true]
        constructor
        · rfl
        · intro p same
          cases p with
          | service c v =>
            have there : s.fleet.binding? c v = t.fleet.binding? c v := same
            simp only [SameAt, there]
          | family name => exact same
          | alarm name => exact same
        · exact ⟨[desired], rfl, rfl⟩
      · simp only [bound, if_false]
        exact .still rfl
  | patchAlarm name threshold =>
    have here : s.monitor.alarm? name = t.monitor.alarm? name := same
    simp only [perform, Monitor.patchAlarm, here]
    cases t.monitor.alarm? name with
    | none => exact .still rfl
    | some alarm =>
      constructor
      · rfl
      · intro p same
        cases p with
        | alarm other =>
          have there : s.monitor.alarm? other = t.monitor.alarm? other := same
          simp only [SameAt, there]
        | family name => exact same
        | service cluster name => exact same
      · exact ⟨[], by simp⟩

/-- A call that is done leaves all other places alone. -/
theorem Does.elsewhere {after : Stores} {answer : call.Answer} (does : s.Does call answer after)
    {p : Place} (other : p ≠ call.place) : s.SameAt after p := by
  cases does with
  | register candidate =>
    cases p with
    | family name =>
      refine (Registry.append_history_other s.registry candidate ?_).symm
      rintro rfl
      exact other rfl
    | service cluster name => rfl
    | alarm name => rfl
  | @rebind cluster service expected bound desired =>
    cases p with
    | service c v =>
      refine (if_neg ?_).symm
      rintro ⟨rfl, rfl⟩
      exact other rfl
    | family name => rfl
    | alarm name => rfl
  | @patchAlarm name there threshold =>
    cases p with
    | alarm name' =>
      refine (Monitor.alarm?_patched_other s.monitor threshold ?_).symm
      rintro rfl
      exact other rfl
    | family name => rfl
    | service cluster name => rfl
  | _ => exact .refl s p

/-- What befalls a call is the same in both stores, and so is what comes of it. -/
theorem attempt_alike (same : s.SameAt t call.place) (fault : Fault) :
    MadeAlike s t call (s.attempt call fault) (t.attempt call fault) := by
  obtain ⟨reply, kept, rollouts⟩ := perform_alike same
  cases fault with
  | none => exact ⟨reply, kept, rollouts⟩
  | refused error => exact .still rfl
  | lost error => exact ⟨rfl, kept, rollouts⟩

theorem Attempted.elsewhere {after : Stores} {fault : Fault} {reply : call.Reply}
    (attempted : s.Attempted call fault reply after) {p : Place} (other : p ≠ call.place) :
    s.SameAt after p := by
  cases attempted with
  | failed error => exact .refl s p
  | done does => exact does.elsewhere other
  | lost error does _ => exact does.elsewhere other

theorem Attempted.published {after : Stores} {fault : Fault} {reply : call.Reply}
    (attempted : s.Attempted call fault reply after) :
    after.monitor.published = s.monitor.published := by
  cases attempted with
  | failed error => rfl
  | done does => cases does <;> rfl
  | lost error does _ => cases does <;> rfl

/-- Two stores that hold the same, and went through the same rollouts in some order. -/
structure Alike (s t : Stores) : Prop where
  registry : s.registry = t.registry
  bindings : s.fleet.binding? = t.fleet.binding?
  rollouts : s.fleet.rollouts.Perm t.fleet.rollouts
  monitor : s.monitor = t.monitor

theorem alike_of_places (same : ∀ p, s.SameAt t p)
    (rollouts : s.fleet.rollouts.Perm t.fleet.rollouts)
    (published : s.monitor.published = t.monitor.published) : s.Alike t := by
  obtain ⟨⟨history⟩, ⟨binding, logged⟩, ⟨sent, alarm⟩⟩ := s
  obtain ⟨⟨history'⟩, ⟨binding', logged'⟩, ⟨sent', alarm'⟩⟩ := t
  constructor
  case registry => exact congrArg Registry.mk (funext fun name => same (.family name))
  case bindings => exact funext fun cluster => funext fun name => same (.service cluster name)
  case rollouts => exact rollouts
  case monitor =>
    obtain rfl : sent = sent' := published
    exact congrArg (Monitor.mk sent) (funext fun name => same (.alarm name))

end Stores

/-- The places that serving a request reads or writes. -/
def Request.Owns (r : Request) : Place → Prop
  | .family name => name = r.family
  | .service cluster name => cluster = r.cluster ∧ name = r.service
  | .alarm name => name = r.alarm

/-- Two requests that have no place in common. -/
structure Request.Apart (r r' : Request) : Prop where
  service : ¬ (r.cluster = r'.cluster ∧ r.service = r'.service)
  family : r.family ≠ r'.family
  alarm : r.alarm ≠ r'.alarm

theorem Request.Apart.symm {r r' : Request} (apart : r.Apart r') : r'.Apart r where
  service same := apart.service ⟨same.1.symm, same.2.symm⟩
  family same := apart.family same.symm
  alarm same := apart.alarm same.symm

theorem Request.Apart.not_owns {r r' : Request} (apart : r.Apart r') {p : Place}
    (owns : r.Owns p) : ¬ r'.Owns p := by
  intro owns'
  cases p with
  | family name => exact apart.family (owns.symm.trans owns')
  | service cluster name =>
    exact apart.service ⟨owns.1.symm.trans owns'.1, owns.2.symm.trans owns'.2⟩
  | alarm name => exact apart.alarm (owns.symm.trans owns')

/-- What a cycle is about to register is of its request's family. -/
def Cycle.Stage.KeepsFamily (r : Request) : Stage → Prop
  | .confirmBinding _ candidate | .register _ candidate => candidate.family = r.family
  | _ => True

/-- The call of a cycle has its place among those of the request. -/
theorem Cycle.Stage.place_owned {r : Request} {stage : Stage} (keeps : stage.KeepsFamily r) :
    r.Owns (stage.call r).place := by
  cases stage with
  | readBinding => exact ⟨rfl, rfl⟩
  | readAllocation expected => rfl
  | confirmBinding expected candidate => exact ⟨rfl, rfl⟩
  | register expected candidate => exact keeps
  | rebind expected new memory => exact ⟨rfl, rfl⟩
  | inspectBinding expected new memory conflict => exact ⟨rfl, rfl⟩
  | adjustAlarm expected new memory threshold => rfl

end Headroom
