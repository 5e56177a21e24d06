import Headroom.Proofs.Registry
import Headroom.Stores.Basic

/-!
What a call does to the stores. A call that a store turns down changes nothing;
the others are described once, by `Stores.Does`. `Stores.attempt` adds what may
befall a call on its way: it may fail before it gets to its store, and the answer
to one that took effect may be lost.
-/
namespace Headroom

/-- The revision that a service is bound to. -/
def Fleet.bound? (f : Fleet) (cluster service : String) : Option Revision :=
  (f.binding? cluster service).map (·.active)

namespace Fleet

/-- The fleet after a service was bound to another revision. -/
def moved (f : Fleet) (cluster service : String) (desired : Revision) : Fleet :=
  { binding? := fun c s =>
      if c = cluster ∧ s = service then
        (f.binding? c s).map fun b => { b with active := desired }
      else f.binding? c s
    rollouts := f.rollouts ++ [desired] }

theorem describe_eq_ok {f : Fleet} {cluster service : String} {b : Binding}
    (described : f.describe cluster service = .ok b) : f.binding? cluster service = some b := by
  unfold describe at described
  split at described
  · rename_i found
    rw [found, Except.ok.inj described]
  · cases described

/-- What a rebind comes to: a refusal that changes nothing, or the move asked for. -/
theorem rebind_cases (f : Fleet) (cluster service : String) (expected desired : Revision) :
    (∃ error, f.rebind cluster service expected desired = (.error error, f)) ∨
      f.bound? cluster service = some expected ∧
        f.rebind cluster service expected desired = (.ok (), f.moved cluster service desired) := by
  unfold rebind
  split
  · exact .inl ⟨_, rfl⟩
  · rename_i b found
    split
    · rename_i bound
      refine .inr ⟨by simp [bound?, found, bound], ?_⟩
      congr 2
      funext c s
      split
      · rename_i here
        rw [here.1, here.2, found]
        rfl
      · rfl
    · exact .inl ⟨_, rfl⟩

theorem bound?_moved (f : Fleet) (cluster service c s : String) (desired : Revision) :
    (f.moved cluster service desired).bound? c s =
      if c = cluster ∧ s = service then (f.bound? c s).map fun _ => desired else f.bound? c s := by
  simp only [bound?, moved]
  split
  · rw [Option.map_map, Option.map_map]
    rfl
  · rfl

/-- A service that is bound at all is bound to the desired revision afterwards. -/
theorem bound?_moved_self {f : Fleet} {cluster service : String} {expected : Revision}
    (bound : f.bound? cluster service = some expected) (desired : Revision) :
    (f.moved cluster service desired).bound? cluster service = some desired := by
  simp [bound?_moved, bound]

theorem bound?_moved_other (f : Fleet) {cluster service c s : String} (desired : Revision)
    (other : ¬ (c = cluster ∧ s = service)) :
    (f.moved cluster service desired).bound? c s = f.bound? c s := by
  rw [bound?_moved, if_neg other]

end Fleet

namespace Monitor

/-- The monitor after an alarm got another threshold. -/
def patched (m : Monitor) (name : String) (threshold : Float) : Monitor :=
  { m with alarm? := fun other =>
      if other = name then (m.alarm? other).map fun a => { a with threshold } else m.alarm? other }

/-- What a patch comes to: a refusal that changes nothing, or the threshold asked for. -/
theorem patchAlarm_cases (m : Monitor) (name : String) (threshold : Float) :
    (∃ error, m.patchAlarm name threshold = (.error error, m)) ∨
      (m.alarm? name).isSome ∧
        m.patchAlarm name threshold = (.ok (), m.patched name threshold) := by
  unfold patchAlarm
  split
  · exact .inl ⟨_, rfl⟩
  · rename_i alarm found
    refine .inr ⟨by simp [found], ?_⟩
    congr 2
    funext other
    split
    · rename_i same
      rw [same, found]
      rfl
    · rfl

theorem alarm?_patched_self {m : Monitor} {name : String} (there : (m.alarm? name).isSome)
    (threshold : Float) :
    ∃ a, (m.patched name threshold).alarm? name = some a ∧ a.threshold = threshold := by
  obtain ⟨a, found⟩ := Option.isSome_iff_exists.mp there
  exact ⟨{ a with threshold }, by simp [patched, found], rfl⟩

theorem alarm?_patched_other (m : Monitor) {name other : String} (threshold : Float)
    (different : other ≠ name) : (m.patched name threshold).alarm? other = m.alarm? other := by
  simp [patched, different]

end Monitor

namespace Stores

/-- The revision that a service is bound to. -/
def bound? (s : Stores) (cluster service : String) : Option Revision :=
  s.fleet.bound? cluster service

/-- The allocation that a service runs with: the revision that it is bound to, if
that has been registered. -/
def running? (s : Stores) (cluster service : String) : Option Allocation :=
  (s.bound? cluster service).bind fun v => s.registry.revision? v.family v.number

/-- A service is bound to the latest revision of a family. -/
def BoundToLatest (s : Stores) (cluster service family : String) : Prop :=
  ∃ latest, (s.registry.history family).getLast? = some latest ∧
    s.bound? cluster service = some latest.revision

/-- Every service is bound to a registered revision. -/
def AllRegistered (s : Stores) : Prop :=
  ∀ cluster service v, s.bound? cluster service = some v → s.registry.Holds v

/-- One service was moved from a revision to another; the registry and what the other
services are bound to are as before. -/
structure Moved (s after : Stores) (cluster service : String) (source target : Revision) :
    Prop where
  registry : after.registry = s.registry
  before : s.bound? cluster service = some source
  now : after.bound? cluster service = some target
  others : ∀ c v, ¬ (c = cluster ∧ v = service) → after.bound? c v = s.bound? c v

theorem moved_of_bound {s : Stores} {cluster service : String} {source : Revision}
    (bound : s.bound? cluster service = some source) (target : Revision) :
    s.Moved { s with fleet := s.fleet.moved cluster service target } cluster service source
      target where
  registry := rfl
  before := bound
  now := Fleet.bound?_moved_self bound target
  others _ _ other := Fleet.bound?_moved_other s.fleet target other

/-- A call that is answered, the answer, and the stores afterwards. -/
inductive Does (s : Stores) : (call : Call) → call.Answer → Stores → Prop where
  | readBinding {cluster service : String} {b : Binding}
      (found : s.fleet.binding? cluster service = some b) :
      Does s (.describeBinding cluster service) b s
  | readAllocation {family : String} {a : Allocation}
      (latest : (s.registry.history family).getLast? = some a) : Does s (.describe family) a s
  | register (candidate : Allocation) :
      Does s (.register candidate) ⟨candidate.family, s.registry.nextNumber candidate.family⟩
        { s with registry := s.registry.append candidate }
  | rebind {cluster service : String} {expected : Revision}
      (bound : s.bound? cluster service = some expected) (desired : Revision) :
      Does s (.rebind cluster service expected desired) ()
        { s with fleet := s.fleet.moved cluster service desired }
  | patchAlarm {name : String} (there : (s.monitor.alarm? name).isSome) (threshold : Float) :
      Does s (.patchAlarm name threshold) () { s with monitor := s.monitor.patched name threshold }

/-- What an answer tells about the stores as they are after the call. -/
def Tells (after : Stores) : (call : Call) → call.Answer → Prop
  | .describeBinding cluster service, b => after.fleet.binding? cluster service = some b
  | .describe family, a => (after.registry.history family).getLast? = some a
  | .register candidate, new =>
    new.family = candidate.family ∧
      (after.registry.history candidate.family).getLast? =
        some { candidate with number := new.number }
  | .rebind cluster service _ desired, _ => after.bound? cluster service = some desired
  | .patchAlarm name threshold, _ =>
    ∃ a, after.monitor.alarm? name = some a ∧ a.threshold = threshold

theorem Does.tells {s after : Stores} {call : Call} {answer : call.Answer}
    (does : s.Does call answer after) : after.Tells call answer := by
  cases does with
  | readBinding found => exact found
  | readAllocation latest => exact latest
  | register candidate => exact ⟨rfl, by simp [Registry.append_history_self]⟩
  | rebind bound desired => exact Fleet.bound?_moved_self bound desired
  | patchAlarm there threshold => exact Monitor.alarm?_patched_self there threshold

/-- A call is refused and changes nothing, or it is done. -/
theorem perform_cases (s : Stores) (call : Call) :
    (∃ error, s.perform call = (.error error, s)) ∨
      ∃ answer after, s.perform call = (.ok answer, after) ∧ s.Does call answer after := by
  cases call with
  | describeBinding cluster service =>
    cases described : s.fleet.describe cluster service with
    | error error => exact .inl ⟨error, by simp [perform, described]⟩
    | ok b =>
      exact .inr ⟨b, s, by simp [perform, described], .readBinding (Fleet.describe_eq_ok described)⟩
  | describe family =>
    cases described : s.registry.describe family with
    | error error => exact .inl ⟨error, by simp [perform, described]⟩
    | ok a =>
      exact .inr ⟨a, s, by simp [perform, described],
        .readAllocation (Registry.describe_eq_ok described)⟩
  | register candidate =>
    obtain ⟨error, refused⟩ | registered := s.registry.register_cases candidate
    · exact .inl ⟨error, by simp [perform, refused]⟩
    · exact .inr ⟨_, _, by simp [perform, registered], .register candidate⟩
  | rebind cluster service expected desired =>
    obtain ⟨error, refused⟩ | ⟨bound, moved⟩ :=
      s.fleet.rebind_cases cluster service expected desired
    · exact .inl ⟨error, by simp [perform, refused]⟩
    · exact .inr ⟨_, _, by simp [perform, moved], .rebind bound desired⟩
  | patchAlarm name threshold =>
    obtain ⟨error, refused⟩ | ⟨there, patched⟩ := s.monitor.patchAlarm_cases name threshold
    · exact .inl ⟨error, by simp [perform, refused]⟩
    · exact .inr ⟨_, _, by simp [perform, patched], .patchAlarm there threshold⟩

end Stores

/-- What befalls a call on its way. -/
inductive Fault where
  | none
  /-- The call fails and has no effect. -/
  | refused (error : Error)
  /-- The call takes effect, and an error comes in place of the answer. -/
  | lost (error : Error)
  deriving DecidableEq, Repr

namespace Stores

/-- Make a call that a fault may befall: its reply, and the stores after it. -/
def attempt (s : Stores) (call : Call) : Fault → call.Reply × Stores
  | .none => s.perform call
  | .refused error => (.error error, s)
  | .lost error => (.error error, (s.perform call).2)

/-- A call that a fault may befall, its reply, and the stores afterwards. -/
inductive Attempted (s : Stores) (call : Call) (fault : Fault) : call.Reply → Stores → Prop where
  | failed (error : Error) : Attempted s call fault (.error error) s
  | done {answer : call.Answer} {after : Stores} (does : s.Does call answer after) :
      Attempted s call fault (.ok answer) after
  | lost {answer : call.Answer} {after : Stores} (error : Error)
      (does : s.Does call answer after) (unheard : fault = .lost error) :
      Attempted s call fault (.error error) after

theorem attempted {s after : Stores} {call : Call} {fault : Fault} {reply : call.Reply}
    (made : s.attempt call fault = (reply, after)) : s.Attempted call fault reply after := by
  obtain ⟨rfl, rfl⟩ := Prod.mk.inj made.symm
  cases fault with
  | none =>
    obtain ⟨error, refused⟩ | ⟨answer, after, done, does⟩ := s.perform_cases call
    · simpa [attempt, refused] using .failed error
    · simpa [attempt, done] using .done does
  | refused error => exact .failed error
  | lost error =>
    obtain ⟨_, refused⟩ | ⟨answer, after, done, does⟩ := s.perform_cases call
    · simpa [attempt, refused] using .failed error
    · simpa [attempt, done] using .lost error does rfl

/-- A call whose answer is not lost has no effect, or it is answered. -/
theorem attempt_cases (s : Stores) (call : Call) {fault : Fault}
    (heard : ∀ error, fault ≠ .lost error) :
    (∃ error, s.attempt call fault = (.error error, s)) ∨
      ∃ answer after, s.attempt call fault = (.ok answer, after) ∧ s.Does call answer after := by
  cases fault with
  | none => exact s.perform_cases call
  | refused error => exact .inl ⟨error, rfl⟩
  | lost error => exact absurd rfl (heard error)

theorem Does.grows {s after : Stores} {call : Call} {answer : call.Answer}
    (does : s.Does call answer after) : s.registry.GrowsTo after.registry := by
  cases does with
  | register candidate => exact .append s.registry candidate
  | _ => exact .refl s.registry

theorem Does.sound {s after : Stores} {call : Call} {answer : call.Answer}
    (does : s.Does call answer after) (sound : s.registry.Sound) : after.registry.Sound := by
  cases does with
  | register candidate => exact sound.append candidate
  | _ => exact sound

/-- A call registers one revision at most. -/
theorem Does.length_history {s after : Stores} {call : Call} {answer : call.Answer}
    (does : s.Does call answer after) (family : String) :
    (after.registry.history family).length ≤ (s.registry.history family).length + 1 := by
  cases does with
  | register candidate =>
    simp only [Registry.append]
    split
    · simp
    · exact Nat.le_succ _
  | _ => exact Nat.le_succ _

variable {s after : Stores} {call : Call} {fault : Fault} {reply : call.Reply}

theorem Attempted.grows (attempted : s.Attempted call fault reply after) :
    s.registry.GrowsTo after.registry := by
  cases attempted with
  | failed error => exact .refl _
  | done does => exact does.grows
  | lost error does _ => exact does.grows

theorem Attempted.sound (attempted : s.Attempted call fault reply after)
    (sound : s.registry.Sound) : after.registry.Sound := by
  cases attempted with
  | failed error => exact sound
  | done does => exact does.sound sound
  | lost error does _ => exact does.sound sound

theorem Attempted.tells {answer : call.Answer}
    (attempted : s.Attempted call fault (.ok answer) after) : after.Tells call answer := by
  cases attempted with
  | done does => exact does.tells

/-- Only a rebind of a service changes what it is bound to. -/
theorem Attempted.rebinds (attempted : s.Attempted call fault reply after)
    {cluster service : String} (changed : after.bound? cluster service ≠ s.bound? cluster service) :
    ∃ source target, call = .rebind cluster service source target := by
  have done : ∀ {answer : call.Answer}, s.Does call answer after →
      ∃ source target, call = .rebind cluster service source target := by
    intro answer does
    cases does with
    | @rebind c v source bound target =>
      have moved := Stores.moved_of_bound bound target
      by_cases here : cluster = c ∧ service = v
      · obtain ⟨rfl, rfl⟩ := here
        exact ⟨source, target, rfl⟩
      · exact absurd (moved.others cluster service here) changed
    | _ => exact absurd rfl changed
  cases attempted with
  | failed error => exact absurd rfl changed
  | done does => exact done does
  | lost error does _ => exact done does

/-- Only a registration changes a history, and only that of its candidate's family. -/
theorem Attempted.registers (attempted : s.Attempted call fault reply after) (family : String) :
    after.registry.history family = s.registry.history family ∨
      ∃ candidate, call = .register candidate ∧ candidate.family = family ∧
        after.registry = s.registry.append candidate := by
  have done : ∀ {answer : call.Answer}, s.Does call answer after →
      after.registry.history family = s.registry.history family ∨
        ∃ candidate, call = .register candidate ∧ candidate.family = family ∧
          after.registry = s.registry.append candidate := by
    intro answer does
    cases does with
    | register candidate =>
      by_cases own : family = candidate.family
      · exact .inr ⟨candidate, rfl, own.symm, rfl⟩
      · exact .inl (s.registry.append_history_other candidate own)
    | _ => exact .inl rfl
  cases attempted with
  | failed error => exact .inl rfl
  | done does => exact done does
  | lost error does _ => exact done does

/-- Only a patch of an alarm changes it, and to the threshold asked for. -/
theorem Attempted.patches (attempted : s.Attempted call fault reply after) (name : String) :
    after.monitor.alarm? name = s.monitor.alarm? name ∨
      ∃ threshold, call = .patchAlarm name threshold ∧
        ∃ a, after.monitor.alarm? name = some a ∧ a.threshold = threshold := by
  have done : ∀ {answer : call.Answer}, s.Does call answer after →
      after.monitor.alarm? name = s.monitor.alarm? name ∨
        ∃ threshold, call = .patchAlarm name threshold ∧
          ∃ a, after.monitor.alarm? name = some a ∧ a.threshold = threshold := by
    intro answer does
    cases does with
    | @patchAlarm patched there threshold =>
      by_cases own : name = patched
      · subst own
        exact .inr ⟨threshold, rfl, Monitor.alarm?_patched_self there threshold⟩
      · exact .inl (s.monitor.alarm?_patched_other threshold own)
    | _ => exact .inl rfl
  cases attempted with
  | failed error => exact .inl rfl
  | done does => exact done does
  | lost error does _ => exact done does

theorem Attempted.length_history (attempted : s.Attempted call fault reply after)
    (family : String) :
    (after.registry.history family).length ≤ (s.registry.history family).length + 1 := by
  cases attempted with
  | failed error => exact Nat.le_succ _
  | done does => exact does.length_history family
  | lost error does _ => exact does.length_history family

end Stores
end Headroom
