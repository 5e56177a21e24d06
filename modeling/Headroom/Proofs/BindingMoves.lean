import Headroom.Proofs.Interleaving
import Mathlib.Data.List.Destutter

/-!
How bindings move when cycles interleave. A cycle binds its service to a revision
that it has registered itself and only away from the revision that it read first.
Since registered numbers are never given out again, no service comes back to a
revision that it left, and so no two cycles that read the same revision both move
the service (`bindings_move_once`).
-/
namespace Headroom.Interleaving

open Headroom.Cycle

variable {ι : Type}

namespace Entry

/-- The call moved a service from one revision to another. -/
structure Moves (e : Entry ι) (cluster service : String) (source target : Revision) : Prop where
  before : e.before.bound? cluster service = some source
  after : e.after.bound? cluster service = some target
  different : source ≠ target

theorem Moves.changes {e : Entry ι} {cluster service : String} {source target : Revision}
    (moves : e.Moves cluster service source target) : e.Changes cluster service := by
  rw [Changes, moves.before, moves.after]
  simpa using moves.different

/-- No service is moved away from the same revision by both calls. -/
def Apart (e e' : Entry ι) : Prop :=
  ∀ cluster service source target target',
    e.Moves cluster service source target → ¬ e'.Moves cluster service source target'

instance : Std.Symm (Apart (ι := ι)) where
  symm _ _ apart cluster service source target target' moves moves' :=
    apart cluster service source target' target moves' moves

end Entry

/-- What a call does to the revisions in use and in the registry. -/
inductive Footprint (s : Stores) (call : Call) (reply : call.Reply) (after : Stores) : Prop where
  | still (bound : ∀ c v, after.bound? c v = s.bound? c v)
      (silent : Exchange.registered? ⟨call, reply⟩ = none)
  | registered (candidate : Allocation)
      (grown : after = { s with registry := s.registry.append candidate })
      (named : Exchange.registered? ⟨call, reply⟩ =
        some ⟨candidate.family, s.registry.nextNumber candidate.family⟩)
  | moved {cluster service : String} {source target : Revision}
      (rebind : call = .rebind cluster service source target)
      (moved : s.Moved after cluster service source target)
      (silent : Exchange.registered? ⟨call, reply⟩ = none)

theorem footprint {s after : Stores} {call : Call} {fault : Fault} {reply : call.Reply}
    (attempted : s.Attempted call fault reply after) : Footprint s call reply after := by
  cases attempted with
  | failed error => exact .still (fun _ _ => rfl) (Exchange.registered?_error call error)
  | done does =>
    cases does with
    | register candidate => exact .registered candidate rfl rfl
    | rebind bound desired => exact .moved rfl (Stores.moved_of_bound bound desired) rfl
    | _ => exact .still (fun _ _ => rfl) rfl
  | lost error does _ =>
    have silent := Exchange.registered?_error call error
    cases does with
    | rebind bound desired => exact .moved rfl (Stores.moved_of_bound bound desired) silent
    | _ => exact .still (fun _ _ => rfl) silent

namespace State

/-- The stores at all times, newest first. -/
def timeline (s : State ι) : List Stores := s.stores :: s.log.map (·.before)

/-- The revisions that a service has been bound to, one after the other, the present
one first. -/
def values (s : State ι) (cluster service : String) : List (Option Revision) :=
  (s.timeline.map (·.bound? cluster service)).destutter (· ≠ ·)

variable {s : State ι} {cluster service : String}

theorem values_of_stores {s' : State ι} (stores : s'.stores = s.stores) (log : s'.log = s.log) :
    s'.values cluster service = s.values cluster service := by
  simp [values, timeline, stores, log]

theorem present_mem_values : s.stores.bound? cluster service ∈ s.values cluster service := by
  simp only [values, timeline, List.map_cons, List.destutter_cons']
  exact List.mem_destutter' _ _ _

variable [DecidableEq ι]

theorem values_called_same (i : ι) (course : Course) (reply : course.call.Reply) {after : Stores}
    (same : after.bound? cluster service = s.stores.bound? cluster service) :
    (s.called i course reply after).values cluster service = s.values cluster service := by
  simp [values, timeline, called, List.destutter_cons', same]

theorem values_called_changed (i : ι) (course : Course) (reply : course.call.Reply)
    {after : Stores} (changed : after.bound? cluster service ≠ s.stores.bound? cluster service) :
    (s.called i course reply after).values cluster service =
      after.bound? cluster service :: s.values cluster service := by
  simp [values, timeline, called, List.destutter_cons', changed]

/-- A move adds its target to the values of its service. -/
theorem values_moved (i : ι) (course : Course) (reply : course.call.Reply) {after : Stores}
    {source target : Revision} (moved : s.stores.Moved after cluster service source target)
    (different : source ≠ target) (c v : String) :
    (s.called i course reply after).values c v =
      if c = cluster ∧ v = service then some target :: s.values c v else s.values c v := by
  split
  · rename_i same
    obtain ⟨rfl, rfl⟩ := same
    rw [values_called_changed, moved.now]
    rw [moved.now, moved.before]
    simpa using different.symm
  · rename_i other
    exact values_called_same i course reply (moved.others c v other)

theorem registered_called_silent {i : ι} {course : Course} {reply : course.call.Reply}
    (silent : Exchange.registered? ⟨course.call, reply⟩ = none) (after : Stores) (j : ι) :
    registered ((s.called i course reply after).transcript j) = registered (s.transcript j) := by
  by_cases same : j = i
  · subst same
    simp [transcript_called_self, registered_append, silent]
  · rw [transcript_called_other same]

end State

variable [DecidableEq ι]

/-- A call moved a service, and what entitled its cycle to that: it was the cycle's own
service, the source was the revision that the cycle read first, and the target is one
that it registered. -/
structure Entitled (setup : Setup ι) (s : State ι) (e : Entry ι) (cluster service : String)
    (source target : Revision) : Prop where
  moves : e.Moves cluster service source target
  call : e.call = .rebind cluster service source target
  own : (setup.request e.cycle).cluster = cluster ∧ (setup.request e.cycle).service = service
  expected : expected? (s.transcript e.cycle) = some source
  registered : target ∈ registered (s.transcript e.cycle)

theorem Entitled.mono {setup : Setup ι} {s s' : State ι} {e : Entry ι}
    {cluster service : String} {source target : Revision}
    (entitled : Entitled setup s e cluster service source target)
    (grown : s.transcript e.cycle <+: s'.transcript e.cycle) :
    Entitled setup s' e cluster service source target :=
  { entitled with
    expected := expected?_of_prefix grown entitled.expected
    registered := registered_of_prefix grown entitled.registered }

/-- What every step keeps, as long as the registry has room. -/
structure MoveInvariant (setup : Setup ι) (s : State ι) : Prop where
  sound : s.stores.registry.Sound
  /-- Whatever a service was bound to is registered. -/
  known : ∀ cluster service r, some r ∈ s.values cluster service → s.stores.registry.Holds r
  /-- Whatever a cycle was told it registered is. -/
  told : ∀ i r, r ∈ registered (s.transcript i) → s.stores.registry.Holds r
  /-- No two cycles were told of the same revision. -/
  own : ∀ i j r, r ∈ registered (s.transcript i) → r ∈ registered (s.transcript j) → i = j
  entitled : ∀ e ∈ s.log, ∀ cluster service, e.Changes cluster service →
    ∃ source target, Entitled setup s e cluster service source target
  /-- A service is not bound to a revision that it was moved away from. -/
  left : ∀ e ∈ s.log, ∀ cluster service source target, e.Moves cluster service source target →
    some source ∈ s.values cluster service ∧ s.stores.bound? cluster service ≠ some source
  apart : s.log.Pairwise Entry.Apart
  distinct : ∀ cluster service, (s.values cluster service).Nodup
  /-- A revision that a cycle registered was put in place by that cycle, if at all. -/
  mover : ∀ i r cluster service, r ∈ registered (s.transcript i) →
    some r ∈ s.values cluster service →
    ∃ e ∈ s.log, e.cycle = i ∧ ∃ source, e.Moves cluster service source r

namespace MoveInvariant

variable {setup : Setup ι} {s : State ι} {i : ι} {course : Course} {reply : course.call.Reply}
  {after : Stores}

/-- A step that is no call changes nothing that the invariant looks at. -/
theorem congr {s' : State ι} (inv : MoveInvariant setup s) (stores : s'.stores = s.stores)
    (log : s'.log = s.log) : MoveInvariant setup s' := by
  have transcripts := State.transcript_of_log log
  have values : ∀ cluster service, s'.values cluster service = s.values cluster service :=
    fun _ _ => State.values_of_stores stores log
  constructor
  case sound => simpa only [stores] using inv.sound
  case known => simpa only [stores, values] using inv.known
  case told => simpa only [stores, transcripts] using inv.told
  case own => simpa only [transcripts] using inv.own
  case entitled =>
    intro e member cluster service changes
    rw [log] at member
    obtain ⟨source, target, entitled⟩ := inv.entitled e member cluster service changes
    exact ⟨source, target, entitled.mono (by simp [transcripts])⟩
  case left => simpa only [stores, values, log] using inv.left
  case apart => simpa only [log] using inv.apart
  case distinct => simpa only [values] using inv.distinct
  case mover => simpa only [values, log, transcripts] using inv.mover

/-- Old changes stay entitled, and a call that changes no binding adds none. -/
theorem entitled_called (inv : MoveInvariant setup s)
    (new : ∀ cluster service, s.stores.bound? cluster service ≠ after.bound? cluster service →
      ∃ source target, Entitled setup (s.called i course reply after)
        ⟨i, course.call, reply, s.stores, after⟩ cluster service source target) :
    ∀ e ∈ (s.called i course reply after).log, ∀ cluster service, e.Changes cluster service →
      ∃ source target, Entitled setup (s.called i course reply after) e cluster service
        source target := by
  intro e member cluster service changes
  obtain rfl | old := List.mem_cons.mp member
  · exact new cluster service changes
  · obtain ⟨source, target, entitled⟩ := inv.entitled e old cluster service changes
    exact ⟨source, target, entitled.mono (State.transcript_called_prefix i e.cycle _ _ _)⟩

omit [DecidableEq ι] in
/-- A call that leaves the bindings alone adds no change to the log. -/
theorem not_moves_of_still (still : ∀ c v, after.bound? c v = s.stores.bound? c v)
    {cluster service : String} {source target : Revision} :
    ¬ Entry.Moves ⟨i, course.call, reply, s.stores, after⟩ cluster service source target :=
  fun moves => moves.changes (still cluster service).symm

/-- Calls that leave the bindings alone and register nothing that is told keep it. -/
theorem still (inv : MoveInvariant setup s) (grows : s.stores.registry.GrowsTo after.registry)
    (sound : after.registry.Sound) (bound : ∀ c v, after.bound? c v = s.stores.bound? c v)
    (named : ∀ j r, r ∈ registered ((s.called i course reply after).transcript j) →
      r ∈ registered (s.transcript j) ∨
        ¬ s.stores.registry.Holds r ∧ j = i ∧ after.registry.Holds r) :
    MoveInvariant setup (s.called i course reply after) := by
  have values : ∀ cluster service,
      (s.called i course reply after).values cluster service = s.values cluster service :=
    fun cluster service => State.values_called_same i course reply (bound cluster service)
  constructor
  case sound => exact sound
  case known =>
    intro cluster service r member
    rw [values] at member
    exact (inv.known cluster service r member).mono grows
  case told =>
    intro j r member
    obtain old | ⟨-, -, held⟩ := named j r member
    · exact (inv.told j r old).mono grows
    · exact held
  case own =>
    intro j k r first second
    obtain old | ⟨fresh, here, -⟩ := named j r first <;>
      obtain old' | ⟨fresh', here', -⟩ := named k r second
    · exact inv.own j k r old old'
    · exact absurd (inv.told j r old) fresh'
    · exact absurd (inv.told k r old') fresh
    · exact here.trans here'.symm
  case entitled =>
    exact inv.entitled_called fun cluster service changes =>
      absurd (bound cluster service).symm changes
  case left =>
    intro e member cluster service source target moves
    obtain rfl | old := List.mem_cons.mp member
    · exact absurd moves (not_moves_of_still bound)
    · rw [values]
      exact ⟨(inv.left e old cluster service source target moves).1, by
        rw [show (s.called i course reply after).stores = after from rfl, bound]
        exact (inv.left e old cluster service source target moves).2⟩
  case apart =>
    refine List.pairwise_cons.mpr ⟨fun e _ cluster service source target target' moves => ?_,
      inv.apart⟩
    exact absurd moves (not_moves_of_still bound)
  case distinct =>
    intro cluster service
    rw [values]
    exact inv.distinct cluster service
  case mover =>
    intro j r cluster service member taken
    rw [values] at taken
    obtain old | ⟨fresh, -, -⟩ := named j r member
    · obtain ⟨e, logged, rest⟩ := inv.mover j r cluster service old taken
      exact ⟨e, List.mem_cons_of_mem _ logged, rest⟩
    · exact absurd (inv.known cluster service r taken) fresh

/-- A service that has been bound to the revision that a cycle registered was moved there
by that cycle, from the revision that it read first. -/
theorem moved_of_taken (inv : MoveInvariant setup s) {cluster service : String}
    {source target : Revision} (expected : expected? (s.transcript i) = some source)
    (told : target ∈ registered (s.transcript i)) (taken : some target ∈ s.values cluster service) :
    ∃ e ∈ s.log, e.cycle = i ∧ e.Moves cluster service source target := by
  obtain ⟨e, logged, rfl, earlier, moves⟩ := inv.mover i target cluster service told taken
  obtain ⟨read, _, entitled⟩ := inv.entitled e logged cluster service moves.changes
  have same_read : read = earlier :=
    Option.some.inj (entitled.moves.before.symm.trans moves.before)
  have same_source : read = source := Option.some.inj (entitled.expected.symm.trans expected)
  rw [← same_read, same_source] at moves
  exact ⟨e, logged, rfl, moves⟩

/-- A cycle that finds its service where it read it first has not moved it yet, and
nobody else can have brought it to the cycle's own revision. -/
theorem target_not_taken (inv : MoveInvariant setup s) {cluster service : String}
    {source target : Revision} (expected : expected? (s.transcript i) = some source)
    (told : target ∈ registered (s.transcript i))
    (bound : s.stores.bound? cluster service = some source) :
    some target ∉ s.values cluster service := by
  intro taken
  obtain ⟨e, logged, -, moves⟩ := inv.moved_of_taken expected told taken
  exact (inv.left e logged cluster service source target moves).2 bound

/-- A rebind that is carried out moves its service. -/
theorem moves_of_moved (inv : MoveInvariant setup s) {cluster service : String}
    {source target : Revision} (expected : expected? (s.transcript i) = some source)
    (told : target ∈ registered (s.transcript i))
    (moved : s.stores.Moved after cluster service source target) :
    Entry.Moves ⟨i, course.call, reply, s.stores, after⟩ cluster service source target := by
  refine ⟨moved.before, moved.now, ?_⟩
  rintro rfl
  apply inv.target_not_taken expected told moved.before
  rw [← moved.before]
  exact State.present_mem_values

/-- A rebind that is carried out keeps it. -/
theorem moved (inv : MoveInvariant setup s) {cluster service : String} {source target : Revision}
    (rebind : course.call = .rebind cluster service source target)
    (here : (setup.request i).cluster = cluster ∧ (setup.request i).service = service)
    (expected : expected? (s.transcript i) = some source)
    (told : target ∈ registered (s.transcript i))
    (moved : s.stores.Moved after cluster service source target)
    (silent : Exchange.registered? ⟨course.call, reply⟩ = none) :
    MoveInvariant setup (s.called i course reply after) := by
  have untaken := inv.target_not_taken expected told moved.before
  have moves : Entry.Moves ⟨i, course.call, reply, s.stores, after⟩ cluster service source target :=
    inv.moves_of_moved expected told moved
  -- The service itself is the only one that the call changes.
  have only : ∀ c v, Entry.Changes ⟨i, course.call, reply, s.stores, after⟩ c v →
      c = cluster ∧ v = service := by
    intro c v changes
    by_contra other
    exact changes (moved.others c v other).symm
  have values : ∀ c v, (s.called i course reply after).values c v =
      if c = cluster ∧ v = service then some target :: s.values c v else s.values c v :=
    State.values_moved i course reply moved moves.different
  have transcripts : ∀ j,
      registered ((s.called i course reply after).transcript j) = registered (s.transcript j) :=
    State.registered_called_silent silent after
  constructor
  case sound =>
    have sound := inv.sound
    rwa [← moved.registry] at sound
  case known =>
    intro c v r member
    show after.registry.Holds r
    rw [moved.registry]
    rw [values] at member
    split at member
    · obtain new | old := List.mem_cons.mp member
      · rw [Option.some.inj new]
        exact inv.told i target told
      · exact inv.known c v r old
    · exact inv.known c v r member
  case told =>
    intro j r member
    show after.registry.Holds r
    rw [moved.registry]
    rw [transcripts] at member
    exact inv.told j r member
  case own => simpa only [transcripts] using inv.own
  case entitled =>
    refine inv.entitled_called fun c v changes => ?_
    obtain ⟨rfl, rfl⟩ := only c v changes
    have grown := s.transcript_called_prefix i i course reply after
    exact ⟨source, target, moves, rebind, here, expected?_of_prefix grown expected,
      registered_of_prefix grown told⟩
  case left =>
    intro e member c v earlier later leaves
    show _ ∧ after.bound? c v ≠ some earlier
    rw [values]
    obtain rfl | old := List.mem_cons.mp member
    · obtain ⟨rfl, rfl⟩ := only c v leaves.changes
      have same : earlier = source := Option.some.inj (leaves.before.symm.trans moved.before)
      rw [if_pos ⟨rfl, rfl⟩, same, moved.now]
      refine ⟨List.mem_cons_of_mem _ ?_, by simpa using moves.different.symm⟩
      rw [← moved.before]
      exact State.present_mem_values
    · obtain ⟨taken, gone⟩ := inv.left e old c v earlier later leaves
      split
      · rename_i same
        obtain ⟨rfl, rfl⟩ := same
        refine ⟨List.mem_cons_of_mem _ taken, ?_⟩
        rw [moved.now]
        intro back
        rw [← back] at taken
        exact untaken taken
      · rename_i other
        rw [moved.others c v other]
        exact ⟨taken, gone⟩
  case apart =>
    refine List.pairwise_cons.mpr ⟨fun e old c v earlier a b newer older => ?_, inv.apart⟩
    obtain ⟨rfl, rfl⟩ := only c v newer.changes
    exact (inv.left e old c v earlier b older).2 newer.before
  case distinct =>
    intro c v
    rw [values]
    split
    · rename_i same
      obtain ⟨rfl, rfl⟩ := same
      exact List.nodup_cons.mpr ⟨untaken, inv.distinct c v⟩
    · exact inv.distinct c v
  case mover =>
    intro j r c v member taken
    rw [transcripts] at member
    rw [values] at taken
    have earlier : some r ∈ s.values c v → ∃ e ∈ (s.called i course reply after).log,
        e.cycle = j ∧ ∃ source, e.Moves c v source r := by
      intro old
      obtain ⟨e, logged, rest⟩ := inv.mover j r c v member old
      exact ⟨e, List.mem_cons_of_mem _ logged, rest⟩
    split at taken
    · rename_i same
      obtain ⟨rfl, rfl⟩ := same
      obtain new | old := List.mem_cons.mp taken
      · obtain rfl := Option.some.inj new
        exact ⟨_, List.mem_cons_self, inv.own i j r told member, source, moves⟩
      · exact earlier old
    · exact earlier taken

theorem start {stores : Stores} (sound : stores.registry.Sound) (known : stores.AllRegistered) :
    MoveInvariant setup { stores } := by
  have values : ∀ cluster service, ({ stores } : State ι).values cluster service =
      [stores.bound? cluster service] := fun _ _ => rfl
  constructor
  case sound => exact sound
  case known =>
    intro cluster service r member
    rw [values, List.mem_singleton] at member
    exact known cluster service r member.symm
  case told => exact fun i r member => by cases member
  case own => exact fun i j r member => by cases member
  case entitled => exact fun e member => by cases member
  case left => exact fun e member => by cases member
  case apart => exact List.Pairwise.nil
  case distinct => exact fun cluster service => by simp [values]
  case mover => exact fun i r cluster service member => by cases member

/-- Every call keeps it. -/
theorem called (inv : MoveInvariant setup s) (room : s.stores.registry.HasRoom)
    (request : course.request = setup.request i)
    (recalls : course.stage.Recalls (s.transcript i)) {fault : Fault}
    (attempted : s.stores.Attempted course.call fault reply after) :
    MoveInvariant setup (s.called i course reply after) := by
  cases footprint attempted with
  | still bound silent =>
    refine inv.still attempted.grows (attempted.sound inv.sound) bound fun j r member => .inl ?_
    rwa [State.registered_called_silent silent] at member
  | registered candidate grown named =>
    have fresh := inv.sound.fresh room candidate.family
    refine inv.still attempted.grows (attempted.sound inv.sound) (by simp [grown, Stores.bound?])
      fun j r member => ?_
    by_cases same : j = i
    · subst same
      rw [State.transcript_called_self, registered_append, named, List.mem_append,
        Option.toList_some, List.mem_singleton] at member
      obtain old | rfl := member
      · exact .inl old
      · refine .inr ⟨fresh, rfl, ?_⟩
        rw [grown]
        exact s.stores.registry.holds_append candidate
    · rw [State.transcript_called_other same] at member
      exact .inl member
  | @moved cluster service source target rebind moved silent =>
    obtain ⟨here, memory, stage⟩ := Stage.of_call_rebind rebind
    rw [stage] at recalls
    rw [request] at here
    exact inv.moved rebind here recalls.1 (by rw [recalls.2]; exact List.mem_singleton_self _)
      moved silent

end MoveInvariant

theorem Reachable.moveInvariant {setup : Setup ι} {stores : Stores} {s : State ι}
    (reachable : Reachable setup stores s) (sound : stores.registry.Sound)
    (known : stores.AllRegistered) (room : s.stores.registry.HasRoom) : MoveInvariant setup s := by
  revert room
  refine reachable.invariant (P := fun s => s.stores.registry.HasRoom → MoveInvariant setup s)
    (fun _ => .start sound known) ?_
  intro s s' reached inv step room
  cases step.shift with
  | arrived i away here others stores log => exact (inv (by rwa [← stores])).congr stores log
  | called i course reply after calling fault attempted next =>
    subst next
    have before : s.stores.registry.HasRoom := room.anti attempted.grows
    exact (inv before).called before (reached.request_eq calling) (reached.recalls calling)
      attempted
  | quiet same stores log => exact (inv (by rwa [← stores])).congr stores log

/-- A cycle has moved its service. -/
def State.Placed (setup : Setup ι) (s : State ι) (i : ι) (source target : Revision) : Prop :=
  ∃ e ∈ s.log, e.cycle = i ∧
    e.Moves (setup.request i).cluster (setup.request i).service source target

section

variable {setup : Setup ι} {s : State ι}

omit [DecidableEq ι] in
theorem State.Placed.mono {s' : State ι} (logs : s.log ⊆ s'.log) {i : ι}
    {source target : Revision} (placed : s.Placed setup i source target) :
    s'.Placed setup i source target := by
  obtain ⟨e, logged, rest⟩ := placed
  exact ⟨e, logs logged, rest⟩

/-- A rebind that is answered was carried out by this call. -/
theorem MoveInvariant.placed_of_rebound (inv : MoveInvariant setup s) {i : ι} {course : Course}
    {reply : course.call.Reply} {after : Stores} {source target : Revision}
    (expected : expected? (s.transcript i) = some source)
    (told : target ∈ registered (s.transcript i))
    (moved : s.stores.Moved after (setup.request i).cluster (setup.request i).service
      source target) : (s.called i course reply after).Placed setup i source target :=
  ⟨_, List.mem_cons_self, rfl, inv.moves_of_moved expected told moved⟩

/-- A service found at the revision that a cycle registered was moved there by it. -/
theorem MoveInvariant.placed_of_found (inv : MoveInvariant setup s) {i : ι}
    {source target : Revision} (expected : expected? (s.transcript i) = some source)
    (told : target ∈ registered (s.transcript i))
    (bound : s.stores.bound? (setup.request i).cluster (setup.request i).service = some target) :
    s.Placed setup i source target := by
  have taken : some target ∈ s.values (setup.request i).cluster (setup.request i).service := by
    rw [← bound]
    exact State.present_mem_values
  exact inv.moved_of_taken expected told taken

/-- A call after which a cycle takes its service to be moved comes after the move, or is
the move. -/
theorem MoveInvariant.placed_called (inv : MoveInvariant setup s) {i : ι} {course : Course}
    {reply : course.call.Reply} {after : Stores} {fault : Fault}
    (request : course.request = setup.request i)
    (recalls : course.stage.Recalls (s.transcript i))
    (attempted : s.stores.Attempted course.call fault reply after)
    (placed : ∀ source target, course.stage.moved? = some (source, target) →
      s.Placed setup i source target) :
    ∀ source target,
      (course.answer (setup.rules (setup.controller i)) reply).next.standing.moved? =
        some (source, target) →
      (s.called i course reply after).Placed setup i source target := by
  have kept : ∀ source target, course.stage.moved? = some (source, target) →
      (s.called i course reply after).Placed setup i source target :=
    fun source target moved => (placed source target moved).mono (List.subset_cons_self _ _)
  refine Course.answer_cases (motive := fun standing => ∀ source target,
    standing.moved? = some (source, target) →
      (s.called i course reply after).Placed setup i source target)
    (setup.rules (setup.controller i)) course reply ?_ ?_ ?_
  · intro detail _ _ source target moved
    exact kept source target moved
  · intro stage path advance _ source target moved
    obtain ⟨_, here, attempt, walked⟩ := course
    subst request
    cases advance with
    | rebound expected new memory =>
      obtain ⟨rfl, rfl⟩ := Prod.mk.inj (Option.some.inj moved)
      cases attempted with
      | done does =>
        cases does with
        | rebind bound _ =>
          exact inv.placed_of_rebound recalls.1 (by rw [recalls.2]; exact List.mem_singleton_self _)
            (Stores.moved_of_bound bound _)
    | applied expected memory conflict active =>
      obtain ⟨rfl, rfl⟩ := Prod.mk.inj (Option.some.inj moved)
      cases attempted with
      | done does =>
        cases does with
        | readBinding found =>
          refine (inv.placed_of_found recalls.1 (by rw [recalls.2]; exact List.mem_singleton_self _)
            ?_).mono (List.subset_cons_self _ _)
          simp [Stores.bound?, Fleet.bound?, found, active]
    | _ => cases moved
  · intro outcome path advance _ source target moved
    obtain ⟨_, here, attempt, walked⟩ := course
    subst request
    cases advance with
    | adjusted expected new memory threshold => exact kept source target moved
    | leftBehind expected new memory threshold error => exact kept source target moved
    | _ => cases moved

/-- A cycle that takes its service to be moved is right. -/
theorem Reachable.placed {stores : Stores} (reachable : Reachable setup stores s)
    (sound : stores.registry.Sound) (known : stores.AllRegistered)
    (room : s.stores.registry.HasRoom) : ∀ i standing source target,
      s.standing? setup i = some standing → standing.moved? = some (source, target) →
      s.Placed setup i source target := by
  revert room
  refine reachable.invariant (P := fun s => s.stores.registry.HasRoom →
    ∀ i standing source target, s.standing? setup i = some standing →
      standing.moved? = some (source, target) → s.Placed setup i source target)
    (fun _ i standing source target here => by cases here) ?_
  intro s s' reached placed step room i standing source target here moved
  cases step.shift with
  | arrived j away now others stores log =>
    have placed := placed (by rwa [← stores])
    by_cases same : i = j
    · subst same
      obtain busy | started := now
      · obtain rfl := Option.some.inj (here.symm.trans busy)
        cases moved
      · obtain rfl := Option.some.inj (here.symm.trans started)
        cases moved
    · rw [others i same] at here
      exact (placed i standing source target here moved).mono (by
        rw [log]
        exact List.Subset.refl _)
  | called j course reply after calling fault attempted next =>
    subst next
    have before : s.stores.registry.HasRoom := room.anti attempted.grows
    have placed := placed before
    by_cases same : i = j
    · subst same
      rw [State.standing?_called_self] at here
      obtain rfl := Option.some.inj here
      exact (reached.moveInvariant sound known before).placed_called (reached.request_eq calling)
        (reached.recalls calling) attempted (fun a b => placed i _ a b calling) source target moved
    · rw [State.standing?_called_other same] at here
      exact (placed i standing source target here moved).mono (List.subset_cons_self _ _)
  | quiet same stores log =>
    rw [same] at here
    exact (placed (by rwa [← stores]) i standing source target here moved).mono
      (by rw [log]; exact List.Subset.refl _)

end

/-- How services are moved: never back to a revision, and each time by the one cycle
that read the old revision first and registered the new one. -/
structure MovesOnce (setup : Setup ι) (s : State ι) : Prop where
  /-- What a service has been bound to, one after the other, is never the same twice. -/
  distinct : ∀ cluster service, (s.values cluster service).Nodup
  /-- Every change is made by a cycle of that service, from the revision that it read
  first to the revision that it registered. -/
  entitled : ∀ e ∈ s.log, ∀ cluster service, e.Changes cluster service →
    ∃ source target, Entitled setup s e cluster service source target ∧
      registered (s.transcript e.cycle) = [target]
  /-- No cycle makes two changes. -/
  once : s.log.Pairwise fun newer older => newer.cycle = older.cycle →
    ∀ c v c' v', newer.Changes c v → ¬ older.Changes c' v'
  /-- Of all cycles that read the same revision first, only one moves the service. -/
  exclusive : ∀ e ∈ s.log, ∀ e' ∈ s.log, ∀ cluster service,
    e.Changes cluster service → e'.Changes cluster service →
    expected? (s.transcript e.cycle) = expected? (s.transcript e'.cycle) → e.cycle = e'.cycle
  /-- What is reported as a move is one change of the log, made by that cycle. -/
  reported : ∀ i path source target memory alarm,
    s.phase i = .finished ⟨.scaled source target memory alarm, path⟩ →
    ∃ newer e older, s.log = newer ++ e :: older ∧ e.cycle = i ∧
      e.Moves (setup.request i).cluster (setup.request i).service source target ∧
      ∀ e' ∈ newer ++ older, ∀ cluster service, ¬ e'.Moves cluster service source target

theorem MoveInvariant.once {setup : Setup ι} {s : State ι} (inv : MoveInvariant setup s) :
    s.log.Pairwise fun newer older => newer.cycle = older.cycle →
      ∀ c v c' v', newer.Changes c v → ¬ older.Changes c' v' := by
  refine inv.apart.imp_of_mem fun {newer older} logged logged' apart same c v c' v' changes
    changes' => ?_
  obtain ⟨source, target, entitled⟩ := inv.entitled newer logged c v changes
  obtain ⟨source', target', entitled'⟩ := inv.entitled older logged' c' v' changes'
  have cluster : c = c' := by rw [← entitled.own.1, ← entitled'.own.1, same]
  have service : v = v' := by rw [← entitled.own.2, ← entitled'.own.2, same]
  have expected' := entitled'.expected
  rw [← same, entitled.expected] at expected'
  have moves' := entitled'.moves
  rw [← cluster, ← service, ← Option.some.inj expected'] at moves'
  exact apart c v source target target' entitled.moves moves'

theorem MoveInvariant.exclusive {setup : Setup ι} {s : State ι} (inv : MoveInvariant setup s) :
    ∀ e ∈ s.log, ∀ e' ∈ s.log, ∀ cluster service,
      e.Changes cluster service → e'.Changes cluster service →
      expected? (s.transcript e.cycle) = expected? (s.transcript e'.cycle) →
      e.cycle = e'.cycle := by
  intro e logged e' logged' cluster service changes changes' expected
  by_contra different
  obtain ⟨source, target, entitled⟩ := inv.entitled e logged cluster service changes
  obtain ⟨source', target', entitled'⟩ := inv.entitled e' logged' cluster service changes'
  rw [entitled.expected, entitled'.expected] at expected
  have moves' := entitled'.moves
  rw [← Option.some.inj expected] at moves'
  have apart := inv.apart.forall logged logged' fun same => different (by rw [same])
  exact apart cluster service source target target' entitled.moves moves'

/-- One call moved a service from this revision to that, and no other call moved any. -/
theorem MoveInvariant.only {setup : Setup ι} {s : State ι} (inv : MoveInvariant setup s)
    {newer older : List (Entry ι)} {e : Entry ι} (split : s.log = newer ++ e :: older)
    {cluster service : String} {source target : Revision}
    (moves : e.Moves cluster service source target) :
    ∀ e' ∈ newer ++ older, ∀ c v, ¬ e'.Moves c v source target := by
  have logged : e ∈ s.log := by simp [split]
  obtain ⟨earlier, later, entitled⟩ := inv.entitled e logged cluster service moves.changes
  have same_target : later = target :=
    Option.some.inj (entitled.moves.after.symm.trans moves.after)
  have told := entitled.registered
  rw [same_target] at told
  intro e' among c v moves'
  have logged' : e' ∈ s.log := by
    rw [split]
    simp only [List.mem_append, List.mem_cons] at among ⊢
    tauto
  obtain ⟨earlier', later', entitled'⟩ := inv.entitled e' logged' c v moves'.changes
  have told' := entitled'.registered
  rw [Option.some.inj (entitled'.moves.after.symm.trans moves'.after)] at told'
  -- The target is one cycle's own, and that cycle has one service.
  have same := inv.own _ _ _ told' told
  have own' := entitled'.own
  rw [same, entitled.own.1, entitled.own.2] at own'
  obtain ⟨rfl, rfl⟩ := own'
  have apart := inv.apart
  rw [split, List.pairwise_append, List.pairwise_cons] at apart
  obtain ⟨-, ⟨below, -⟩, above⟩ := apart
  obtain newer | older := List.mem_append.mp among
  · exact above e' newer e List.mem_cons_self _ _ _ _ _ moves' moves
  · exact below e' older _ _ _ _ _ moves moves'

/-- In every order of steps, and whatever befalls the calls, every change of a binding
is made by one cycle, from the revision that it read first to the one that it
registered; no service comes back to a revision, and a cycle that reports a move has
made it. Numbers have 32 bits, so the families must not outgrow them. -/
theorem bindings_move_once {setup : Setup ι} {stores : Stores} {s : State ι}
    (reachable : Reachable setup stores s) (sound : stores.registry.Sound)
    (known : stores.AllRegistered) (room : s.stores.registry.HasRoom) : MovesOnce setup s := by
  have inv := reachable.moveInvariant sound known room
  refine ⟨inv.distinct, ?_, inv.once, inv.exclusive, ?_⟩
  · intro e logged cluster service changes
    obtain ⟨source, target, entitled⟩ := inv.entitled e logged cluster service changes
    exact ⟨source, target, entitled, reachable.registered_eq entitled.registered⟩
  · intro i path source target memory alarm finished
    have here : s.standing? setup i = some (.ended ⟨.scaled source target memory alarm, path⟩) := by
      simp [State.standing?, finished]
    obtain ⟨e, logged, cycle, moves⟩ :=
      reachable.placed sound known room i _ source target here rfl
    obtain ⟨newer, older, split⟩ := List.append_of_mem logged
    exact ⟨newer, e, older, split, cycle, moves, inv.only split moves⟩

/-- Two controllers that serve the same service. -/
def contest : Setup Bool where
  rules _ := {}
  controller i := i.toNat
  request _ :=
    { cluster := "main", service := "api", container := "api", family := "api", alarm := "memory" }

def contestStores : Stores where
  registry := ({} : Registry).append { family := "api", number := 0, cpu := 256, memory := 512 }
  fleet := ({} : Fleet).insert
    { cluster := "main", service := "api", container := "api", active := ⟨"api", 1⟩ }

/-- Both read and register; one binds the service without hearing of it, and the other
comes too late. -/
def contestMoves : List (Move Bool) :=
  let both := [.call false .none, .take false, .call true .none, .take true]
  [.arrive false, .arrive true] ++ both ++ both ++ both ++ both ++
    [.call false (.lost (.transient "no answer")), .call true .none, .take true, .take false] ++
    both ++ [.call false .none, .take false, .call false .none, .take false]

theorem contest_moves_once : ∃ s, ({ stores := contestStores } : State Bool).run? contest
    contestMoves = some s ∧ s.values "main" "api" = [some ⟨"api", 2⟩, some ⟨"api", 1⟩] ∧
    MovesOnce contest s := by
  have ran : (({ stores := contestStores } : State Bool).run? contest contestMoves).map
      (·.values "main" "api") = some [some ⟨"api", 2⟩, some ⟨"api", 1⟩] := by decide +kernel
  obtain ⟨s, reached, values⟩ := Option.map_eq_some_iff.mp ran
  refine ⟨s, reached, values, bindings_move_once (Reachable.start.run reached)
    (Registry.Sound.empty.append _) ?_ fun family => ?_⟩
  · intro cluster service v bound
    simp only [contestStores, Stores.bound?, Fleet.bound?, Fleet.insert] at bound
    split at bound
    · obtain rfl := Option.some.inj bound
      exact Registry.holds_append {} _
    · cases bound
  · have few : (s.stores.registry.history family).length ≤
        (contestStores.registry.history family).length + contestMoves.length :=
      State.run?_length_history reached family
    have start : (contestStores.registry.history family).length ≤ 1 := by
      simp only [contestStores, Registry.append]
      split <;> simp
    have moves : contestMoves.length = 30 := rfl
    simp only [UInt32.size]
    omega

end Headroom.Interleaving
