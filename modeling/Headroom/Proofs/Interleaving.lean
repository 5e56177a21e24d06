import Headroom.Controller
import Headroom.Proofs.Effects
import Headroom.Proofs.Transcript
import Mathlib.Logic.Function.Basic

/-!
Any number of requests served at once, by any number of controllers, over one set
of stores with no other writer. The order of their steps is left open, and so is
what befalls each call; time is left out, so every pause and every delay of a call
or of its answer is one of the orders; `Schedules` finds the runs in simulated time
among them. A controller is its number: requests with the same number share a set of
held keys.

Every call is logged with the stores before and after it. Nothing but a call
changes the stores, so the log is the whole history of the stores.
-/
namespace Headroom.Interleaving

open Headroom.Cycle

/-- Who serves which request, and by which rules. -/
structure Setup (ι : Type) where
  rules : Nat → Rules
  controller : ι → Nat
  request : ι → Request

/-- Where the serving of a request stands. Between its effect and its being taken, a
reply is on the way. -/
inductive Phase where
  | arriving
  | calling (course : Course)
  | answered (course : Course) (reply : course.call.Reply)
  | finished (report : Report)

/-- A cycle is under way. -/
def Phase.Works : Phase → Prop
  | .calling _ | .answered .. => True
  | .arriving | .finished _ => False

/-- The outcome of a cycle that has ended. -/
def Phase.outcome? : Phase → Option Outcome
  | .finished report => some report.outcome
  | _ => none

theorem Phase.of_outcome? {phase : Phase} {outcome : Outcome}
    (ended : phase.outcome? = some outcome) : ∃ path, phase = .finished ⟨outcome, path⟩ := by
  cases phase with
  | finished report =>
    cases ended
    exact ⟨report.path, rfl⟩
  | _ => cases ended

/-- A call that was made, with the stores before and after it. -/
structure Entry (ι : Type) where
  cycle : ι
  call : Call
  reply : call.Reply
  before : Stores
  after : Stores

/-- The call changed what a service is bound to. -/
def Entry.Changes {ι : Type} (e : Entry ι) (cluster service : String) : Prop :=
  e.before.bound? cluster service ≠ e.after.bound? cluster service

def Entry.exchange {ι : Type} (e : Entry ι) : Exchange := ⟨e.call, e.reply⟩

structure State (ι : Type) where
  stores : Stores
  inFlight : Nat → InFlight := fun _ => {}
  phase : ι → Phase := fun _ => .arriving
  /-- The calls made so far, newest first. -/
  log : List (Entry ι) := []

inductive Move (ι : Type) where
  /-- A request is looked at for the first time. -/
  | arrive (i : ι)
  /-- The call that is due gets to its store, or fails on its way. -/
  | call (i : ι) (fault : Fault)
  /-- The reply arrives. -/
  | take (i : ι)

namespace State

variable {ι : Type} [DecidableEq ι]

def enter (s : State ι) (i : ι) (phase : Phase) : State ι :=
  { s with phase := Function.update s.phase i phase }

def hold (s : State ι) (controller : Nat) (f : InFlight) : State ι :=
  { s with inFlight := Function.update s.inFlight controller f }

/-- The state after a call with its reply and its effect. -/
def called (s : State ι) (i : ι) (course : Course) (reply : course.call.Reply) (after : Stores) :
    State ι :=
  { s with
    stores := after
    phase := Function.update s.phase i (.answered course reply)
    log := ⟨i, course.call, reply, s.stores, after⟩ :: s.log }

/-- Make a move, if it is due. -/
def step? (setup : Setup ι) (s : State ι) : Move ι → Option (State ι)
  | .arrive i =>
    match s.phase i with
    | .arriving =>
      match (s.inFlight (setup.controller i)).take? (setup.request i).key with
      | none => some (s.enter i (.finished (Controller.busyReport (setup.request i))))
      | some f =>
        some ((s.enter i (.calling (Course.start (setup.request i)))).hold (setup.controller i) f)
    | _ => none
  | .call i fault =>
    match s.phase i with
    | .calling course =>
      let (reply, after) := s.stores.attempt course.call fault
      some (s.called i course reply after)
    | _ => none
  | .take i =>
    match s.phase i with
    | .answered course reply =>
      match (course.answer (setup.rules (setup.controller i)) reply).next with
      | .again _ next | .proceed next => some (s.enter i (.calling next))
      | .finish report =>
        some ((s.enter i (.finished report)).hold (setup.controller i)
          ((s.inFlight (setup.controller i)).release (setup.request i).key))
    | _ => none

/-- Make moves one after the other, if each is due. -/
def run? (setup : Setup ι) (s : State ι) : List (Move ι) → Option (State ι)
  | [] => some s
  | move :: rest => (s.step? setup move).bind fun next => next.run? setup rest

end State

section

variable {ι : Type} [DecidableEq ι]

/-- A state that can come about when all requests are yet to arrive and the stores
are as given. -/
inductive Reachable (setup : Setup ι) (stores : Stores) : State ι → Prop where
  | start : Reachable setup stores { stores }
  | step {s s' : State ι} {move : Move ι} (before : Reachable setup stores s)
      (due : s.step? setup move = some s') : Reachable setup stores s'

theorem Reachable.run {setup : Setup ι} {stores : Stores} {s s' : State ι}
    (before : Reachable setup stores s) {moves : List (Move ι)}
    (due : s.run? setup moves = some s') : Reachable setup stores s' := by
  induction moves generalizing s with
  | nil =>
    rw [← Option.some.inj due]
    exact before
  | cons move rest ih =>
    obtain ⟨next, first, later⟩ := Option.bind_eq_some_iff.mp due
    exact ih (before.step first) later

/-- What a move does: the rules of `State.step?` with their conditions. -/
inductive Step (setup : Setup ι) (s : State ι) : State ι → Prop where
  | turnedAway {i : ι} (arriving : s.phase i = .arriving)
      (held : (setup.request i).key ∈ (s.inFlight (setup.controller i)).keys) :
      Step setup s (s.enter i (.finished (Controller.busyReport (setup.request i))))
  | admitted {i : ι} (arriving : s.phase i = .arriving)
      (free : (setup.request i).key ∉ (s.inFlight (setup.controller i)).keys) :
      Step setup s ((s.enter i (.calling (Course.start (setup.request i)))).hold
        (setup.controller i)
        ⟨(setup.request i).key :: (s.inFlight (setup.controller i)).keys⟩)
  | called {i : ι} {course : Course} {reply : course.call.Reply} {after : Stores}
      (calling : s.phase i = .calling course) (fault : Fault)
      (attempted : s.stores.Attempted course.call fault reply after) :
      Step setup s (s.called i course reply after)
  | resumed {i : ι} {course next : Course} {reply : course.call.Reply}
      (answered : s.phase i = .answered course reply)
      (goes : (course.answer (setup.rules (setup.controller i)) reply).next.standing = .due next) :
      Step setup s (s.enter i (.calling next))
  | ended {i : ι} {course : Course} {reply : course.call.Reply} {report : Report}
      (answered : s.phase i = .answered course reply)
      (ends : (course.answer (setup.rules (setup.controller i)) reply).next.standing =
        .ended report) :
      Step setup s ((s.enter i (.finished report)).hold (setup.controller i)
        ((s.inFlight (setup.controller i)).release (setup.request i).key))

theorem State.step {setup : Setup ι} {s s' : State ι} {move : Move ι}
    (due : s.step? setup move = some s') : Step setup s s' := by
  cases move with
  | arrive i =>
    simp only [step?] at due
    split at due
    · rename_i arriving
      unfold InFlight.take? at due
      split at due
      · rename_i taken
        split at taken
        · rw [← Option.some.inj due]
          exact .turnedAway arriving ‹_›
        · cases taken
      · rename_i taken
        split at taken
        · cases taken
        · rw [← Option.some.inj due, ← Option.some.inj taken]
          exact .admitted arriving ‹_›
    · cases due
  | call i fault =>
    simp only [step?] at due
    split at due
    · rename_i calling
      rw [← Option.some.inj due]
      exact .called calling fault (Stores.attempted rfl)
    · cases due
  | take i =>
    simp only [step?] at due
    split at due
    · rename_i answered
      split at due
      · rename_i next goes
        rw [← Option.some.inj due]
        exact .resumed answered (by rw [goes]; rfl)
      · rename_i next goes
        rw [← Option.some.inj due]
        exact .resumed answered (by rw [goes]; rfl)
      · rename_i report ends
        rw [← Option.some.inj due]
        exact .ended answered (by rw [ends]; rfl)
    · cases due

theorem Step.length_history {setup : Setup ι} {s s' : State ι} (step : Step setup s s')
    (family : String) :
    (s'.stores.registry.history family).length ≤ (s.stores.registry.history family).length + 1 := by
  cases step with
  | called calling fault attempted => exact attempted.length_history family
  | _ => exact Nat.le_succ _

/-- Families grow by one revision a move at most, so few moves leave room. -/
theorem State.run?_length_history {setup : Setup ι} {s s' : State ι} {moves : List (Move ι)}
    (due : s.run? setup moves = some s') (family : String) :
    (s'.stores.registry.history family).length ≤
      (s.stores.registry.history family).length + moves.length := by
  induction moves generalizing s with
  | nil => rw [← Option.some.inj due]; simp
  | cons move rest ih =>
    obtain ⟨next, first, later⟩ := Option.bind_eq_some_iff.mp due
    have now := (State.step first).length_history family
    have onward := ih later
    rw [List.length_cons]
    omega

theorem State.run?_room {setup : Setup ι} {s s' : State ι} {moves : List (Move ι)}
    (due : s.run? setup moves = some s') {family : String}
    (few : (s.stores.registry.history family).length + moves.length < UInt32.size) :
    (s'.stores.registry.history family).length < UInt32.size :=
  Nat.lt_of_le_of_lt (State.run?_length_history due family) few

/-- An invariant of the start and of every step holds throughout. -/
theorem Reachable.invariant {setup : Setup ι} {stores : Stores} {P : State ι → Prop}
    (start : P { stores })
    (step : ∀ s s', Reachable setup stores s → P s → Step setup s s' → P s') {s : State ι}
    (reachable : Reachable setup stores s) : P s := by
  induction reachable with
  | start => exact start
  | step before due ih => exact step _ _ before ih (State.step due)

namespace State

/-- The exchanges of one cycle, oldest first. -/
def transcript (s : State ι) (i : ι) : List Exchange :=
  ((s.log.filter (·.cycle = i)).map Entry.exchange).reverse

/-- Where a cycle stands once a reply on the way has been taken; nowhere before its
request has arrived. -/
def standing? (setup : Setup ι) (s : State ι) (i : ι) : Option Standing :=
  match s.phase i with
  | .arriving => none
  | .calling course => some (.due course)
  | .answered course reply =>
    some (course.answer (setup.rules (setup.controller i)) reply).next.standing
  | .finished report => some (.ended report)

variable {setup : Setup ι} {s : State ι}

theorem transcript_called_self (i : ι) (course : Course) (reply : course.call.Reply)
    (after : Stores) :
    (s.called i course reply after).transcript i = s.transcript i ++ [⟨course.call, reply⟩] := by
  simp [transcript, called, Entry.exchange]

theorem transcript_called_other {i j : ι} (other : j ≠ i) (course : Course)
    (reply : course.call.Reply) (after : Stores) :
    (s.called i course reply after).transcript j = s.transcript j := by
  simp [transcript, called, other.symm]

/-- A transcript only grows. -/
theorem transcript_called_prefix (i j : ι) (course : Course) (reply : course.call.Reply)
    (after : Stores) : s.transcript j <+: (s.called i course reply after).transcript j := by
  by_cases same : j = i
  · subst same
    rw [transcript_called_self]
    exact List.prefix_append _ _
  · simp [transcript_called_other same]

theorem exchange_mem_transcript {e : Entry ι} (logged : e ∈ s.log) :
    e.exchange ∈ s.transcript e.cycle := by
  simp only [transcript, List.mem_reverse, List.mem_map, List.mem_filter]
  exact ⟨e, ⟨logged, by simp⟩, rfl⟩

theorem of_mem_transcript {i : ι} {x : Exchange} (told : x ∈ s.transcript i) :
    ∃ e ∈ s.log, e.cycle = i ∧ e.exchange = x := by
  simp only [transcript, List.mem_reverse, List.mem_map, List.mem_filter, decide_eq_true_eq]
    at told
  obtain ⟨e, ⟨logged, cycle⟩, exchange⟩ := told
  exact ⟨e, logged, cycle, exchange⟩

omit [DecidableEq ι] in
theorem standing?_of_finished {i : ι} {report : Report} (closed : s.phase i = .finished report) :
    s.standing? setup i = some (.ended report) := by
  simp only [standing?, closed]

theorem standing?_called_self (i : ι) (course : Course) (reply : course.call.Reply)
    (after : Stores) :
    (s.called i course reply after).standing? setup i =
      some (course.answer (setup.rules (setup.controller i)) reply).next.standing := by
  simp [standing?, called]

theorem standing?_called_other {i j : ι} (other : j ≠ i) (course : Course)
    (reply : course.call.Reply) (after : Stores) :
    (s.called i course reply after).standing? setup j = s.standing? setup j := by
  simp [standing?, called, other]

theorem standing?_enter_other {i j : ι} (other : j ≠ i) (phase : Phase) :
    (s.enter i phase).standing? setup j = s.standing? setup j := by
  simp [standing?, enter, other]

end State

/-- A step as the standings, the stores and the log show it: a request arrives, a call
is made, or nothing happens. -/
inductive Shift (setup : Setup ι) (s s' : State ι) : Prop where
  | arrived (i : ι) (away : s.standing? setup i = none)
      (here : s'.standing? setup i = some (.ended (Controller.busyReport (setup.request i))) ∨
        s'.standing? setup i = some (.due (Course.start (setup.request i))))
      (others : ∀ j, j ≠ i → s'.standing? setup j = s.standing? setup j)
      (stores : s'.stores = s.stores) (log : s'.log = s.log)
  | called (i : ι) (course : Course) (reply : course.call.Reply) (after : Stores)
      (calling : s.standing? setup i = some (.due course)) (fault : Fault)
      (attempted : s.stores.Attempted course.call fault reply after)
      (next : s' = s.called i course reply after)
  | quiet (same : ∀ j, s'.standing? setup j = s.standing? setup j)
      (stores : s'.stores = s.stores) (log : s'.log = s.log)

theorem Step.shift {setup : Setup ι} {s s' : State ι} (step : Step setup s s') :
    Shift setup s s' := by
  cases step with
  | @turnedAway i arriving held =>
    refine .arrived i (by simp [State.standing?, arriving]) (.inl ?_)
      (fun j other => State.standing?_enter_other other _) rfl rfl
    simp [State.standing?, State.enter]
  | @admitted i arriving free =>
    refine .arrived i (by simp [State.standing?, arriving]) (.inr ?_)
      (fun j other => State.standing?_enter_other other _) rfl rfl
    simp [State.standing?, State.enter, State.hold]
  | @called i course reply after calling fault attempted =>
    exact .called i course reply after (by simp [State.standing?, calling]) fault
      attempted rfl
  | @resumed i course next reply answered goes =>
    refine .quiet (fun j => ?_) rfl rfl
    by_cases same : j = i
    · subst same
      simp [State.standing?, State.enter, answered, goes]
    · exact State.standing?_enter_other same _
  | @ended i course reply report answered ends =>
    refine .quiet (fun j => ?_) rfl rfl
    by_cases same : j = i
    · subst same
      simp [State.standing?, State.enter, State.hold, answered, ends]
    · exact State.standing?_enter_other same _

/-- A cycle has made no call before its request arrives. After that its transcript
leads to where it stands, unless it was turned away. -/
structure Tracked (setup : Setup ι) (s : State ι) (i : ι) : Prop where
  away : s.standing? setup i = none → s.transcript i = []
  here : ∀ standing, s.standing? setup i = some standing →
    Follows (setup.rules (setup.controller i)) (setup.request i) (s.transcript i) standing ∨
      s.transcript i = [] ∧ standing = .ended (Controller.busyReport (setup.request i))

/-- What is tracked does not depend on anything but standing and transcript. -/
theorem Tracked.congr {setup : Setup ι} {s s' : State ι} {i : ι} (tracked : Tracked setup s i)
    (standing : s'.standing? setup i = s.standing? setup i)
    (transcript : s'.transcript i = s.transcript i) : Tracked setup s' i :=
  ⟨by rw [standing, transcript]; exact tracked.away,
    by rw [standing, transcript]; exact tracked.here⟩

theorem State.transcript_of_log {s s' : State ι} (log : s'.log = s.log) (i : ι) :
    s'.transcript i = s.transcript i := by
  simp [transcript, log]

theorem Reachable.tracked {setup : Setup ι} {stores : Stores} {s : State ι}
    (reachable : Reachable setup stores s) : ∀ i, Tracked setup s i := by
  refine reachable.invariant (P := fun s => ∀ i, Tracked setup s i) ?_ ?_
  · exact fun i => ⟨fun _ => rfl, fun _ here => by cases here⟩
  · intro s s' _ tracked step i
    cases step.shift with
    | arrived j away here others stores log =>
      by_cases same : i = j
      · subst same
        have silent : s'.transcript i = [] :=
          (State.transcript_of_log log i).trans ((tracked i).away away)
        refine ⟨fun _ => silent, fun standing now => ?_⟩
        obtain busy | started := here
        · exact .inr ⟨silent, Option.some.inj (now.symm.trans busy)⟩
        · rw [← Option.some.inj (started.symm.trans now), silent]
          exact .inl .start
      · exact (tracked i).congr (others i same) (State.transcript_of_log log i)
    | called j course reply after calling fault attempted next =>
      subst next
      by_cases same : i = j
      · subst same
        refine ⟨fun none => ?_, fun standing now => ?_⟩
        · rw [State.standing?_called_self] at none
          cases none
        · rw [State.standing?_called_self] at now
          rw [State.transcript_called_self, ← Option.some.inj now]
          obtain follows | ⟨_, ended⟩ := (tracked i).here _ calling
          · exact .inl (.answer reply follows)
          · cases ended
      · exact (tracked i).congr (State.standing?_called_other same _ _ _)
          (State.transcript_called_other same _ _ _)
    | quiet same stores log =>
      exact (tracked i).congr (same i) (State.transcript_of_log log i)

section

variable {setup : Setup ι} {stores : Stores} {s : State ι}

/-- A course belongs to the request of its cycle. -/
theorem Reachable.request_eq (reachable : Reachable setup stores s) {i : ι} {course : Course}
    (due : s.standing? setup i = some (.due course)) : course.request = setup.request i := by
  obtain follows | ⟨_, ended⟩ := (reachable.tracked i).here _ due
  · exact follows.request_eq course rfl
  · cases ended

/-- What a cycle goes by is what its transcript has brought. -/
theorem Reachable.recalls (reachable : Reachable setup stores s) {i : ι} {standing : Standing}
    (here : s.standing? setup i = some standing) :
    standing.Meets (Stage.Recalls (s.transcript i)) (Outcome.Recalls (s.transcript i)) := by
  obtain follows | ⟨silent, rfl⟩ := (reachable.tracked i).here _ here
  · exact follows.recalls
  · rw [silent]
    exact rfl

/-- The transcript of a cycle that has made a call leads to where the cycle stands. -/
theorem Reachable.follows (reachable : Reachable setup stores s) {i : ι} {x : Exchange}
    (told : x ∈ s.transcript i) : ∃ standing, s.standing? setup i = some standing ∧
      Follows (setup.rules (setup.controller i)) (setup.request i) (s.transcript i) standing := by
  cases here : s.standing? setup i with
  | none =>
    rw [(reachable.tracked i).away here] at told
    cases told
  | some standing =>
    obtain follows | ⟨silent, _⟩ := (reachable.tracked i).here _ here
    · exact ⟨standing, rfl, follows⟩
    · rw [silent] at told
      cases told

/-- A revision that a cycle is told is registered is the only one. -/
theorem Reachable.registered_eq (reachable : Reachable setup stores s) {i : ι} {new : Revision}
    (named : new ∈ registered (s.transcript i)) : registered (s.transcript i) = [new] := by
  obtain ⟨x, told, -⟩ := List.mem_filterMap.mp named
  obtain ⟨standing, -, follows⟩ := reachable.follows told
  exact follows.registered_eq named

end
end
end Headroom.Interleaving
