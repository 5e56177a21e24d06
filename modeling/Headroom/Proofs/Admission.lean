import Headroom.Proofs.Interleaving

/-!
Which requests a controller lets in. It holds the keys of the requests that it is
serving, and turns a request away while its key is held. Nothing is known here of the
collaborators: a call is replied to by any answer or error, and the requests of any
number of controllers take their steps in any order. `keys_held_by_one` says that the
keys held are those of the cycles under way, one cycle to a key, so that none is left
when all have ended. The orders of `Interleaving`, where the collaborators are stores,
are among these (`Reachable.of_interleaving`).
-/
namespace Headroom

namespace InFlight

theorem take?_of_mem {f : InFlight} {key : String} (held : key ∈ f.keys) : f.take? key = none :=
  if_pos held

theorem take?_of_notMem {f : InFlight} {key : String} (free : key ∉ f.keys) :
    f.take? key = some ⟨key :: f.keys⟩ :=
  if_neg free

end InFlight

namespace Admission

open Headroom.Cycle
open Headroom.Interleaving (Phase Setup)

structure State (ι : Type) where
  inFlight : Nat → InFlight := fun _ => {}
  phase : ι → Phase := fun _ => .arriving
  /-- The calls of each cycle with their replies, oldest first. -/
  transcript : ι → List Exchange := fun _ => []

inductive Move (ι : Type) where
  /-- A request is looked at for the first time. -/
  | arrive (i : ι)
  /-- The call that is due is made; this is what calls are replied to with. -/
  | call (i : ι) (respond : (call : Call) → call.Reply)
  /-- The reply arrives. -/
  | take (i : ι)

namespace State

variable {ι : Type} [DecidableEq ι]

def enter (s : State ι) (i : ι) (phase : Phase) : State ι :=
  { s with phase := Function.update s.phase i phase }

def hold (s : State ι) (controller : Nat) (f : InFlight) : State ι :=
  { s with inFlight := Function.update s.inFlight controller f }

/-- The state after a request was let in or turned away. -/
def arrived (setup : Setup ι) (s : State ι) (i : ι) : State ι :=
  match (s.inFlight (setup.controller i)).take? (setup.request i).key with
  | none => s.enter i (.finished (Controller.busyReport (setup.request i)))
  | some f => (s.enter i (.calling (Course.start (setup.request i)))).hold (setup.controller i) f

/-- The state after a call with its reply. -/
def called (s : State ι) (i : ι) (course : Course) (reply : course.call.Reply) : State ι :=
  { s with
    phase := Function.update s.phase i (.answered course reply)
    transcript := Function.update s.transcript i (s.transcript i ++ [⟨course.call, reply⟩]) }

/-- The state after a cycle took a reply. -/
def taken (setup : Setup ι) (s : State ι) (i : ι) (course : Course) (reply : course.call.Reply) :
    State ι :=
  match (course.answer (setup.rules (setup.controller i)) reply).next with
  | .again _ next | .proceed next => s.enter i (.calling next)
  | .finish report =>
    (s.enter i (.finished report)).hold (setup.controller i)
      ((s.inFlight (setup.controller i)).release (setup.request i).key)

/-- Make a move, if it is due. -/
def step? (setup : Setup ι) (s : State ι) : Move ι → Option (State ι)
  | .arrive i =>
    match s.phase i with
    | .arriving => some (s.arrived setup i)
    | _ => none
  | .call i respond =>
    match s.phase i with
    | .calling course => some (s.called i course (respond course.call))
    | _ => none
  | .take i =>
    match s.phase i with
    | .answered course reply => some (s.taken setup i course reply)
    | _ => none

/-- Make moves one after the other, if each is due. -/
def run? (setup : Setup ι) (s : State ι) : List (Move ι) → Option (State ι)
  | [] => some s
  | move :: rest => (s.step? setup move).bind fun next => next.run? setup rest

end State

variable {ι : Type} [DecidableEq ι] {setup : Setup ι} {s s' : State ι}

/-- What a move does: the rules of `State.step?` with their conditions. -/
inductive Step (setup : Setup ι) (s : State ι) : State ι → Prop where
  | arrived {i : ι} (arriving : s.phase i = .arriving) : Step setup s (s.arrived setup i)
  | called {i : ι} {course : Course} (calling : s.phase i = .calling course)
      (reply : course.call.Reply) : Step setup s (s.called i course reply)
  | taken {i : ι} {course : Course} {reply : course.call.Reply}
      (answered : s.phase i = .answered course reply) :
      Step setup s (s.taken setup i course reply)

theorem State.step {move : Move ι} (due : s.step? setup move = some s') : Step setup s s' := by
  cases move with
  | arrive i =>
    simp only [step?] at due
    split at due
    · rw [← Option.some.inj due]
      exact .arrived ‹_›
    · cases due
  | call i respond =>
    simp only [step?] at due
    split at due
    · rw [← Option.some.inj due]
      exact .called ‹_› _
    · cases due
  | take i =>
    simp only [step?] at due
    split at due
    · rw [← Option.some.inj due]
      exact .taken ‹_›
    · cases due

theorem State.arrived_of_held {i : ι}
    (held : (setup.request i).key ∈ (s.inFlight (setup.controller i)).keys) :
    s.arrived setup i = s.enter i (.finished (Controller.busyReport (setup.request i))) := by
  unfold arrived
  rw [InFlight.take?_of_mem held]

theorem State.arrived_of_free {i : ι}
    (free : (setup.request i).key ∉ (s.inFlight (setup.controller i)).keys) :
    s.arrived setup i = (s.enter i (.calling (Course.start (setup.request i)))).hold
      (setup.controller i) ⟨(setup.request i).key :: (s.inFlight (setup.controller i)).keys⟩ := by
  unfold arrived
  rw [InFlight.take?_of_notMem free]

/-- A state that can come about when all requests are yet to arrive. -/
inductive Reachable (setup : Setup ι) : State ι → Prop where
  | start : Reachable setup {}
  | step {s s' : State ι} (before : Reachable setup s) (step : Step setup s s') :
      Reachable setup s'

theorem Reachable.run (before : Reachable setup s) {moves : List (Move ι)}
    (due : s.run? setup moves = some s') : Reachable setup s' := by
  induction moves generalizing s with
  | nil =>
    rw [← Option.some.inj due]
    exact before
  | cons move rest ih =>
    obtain ⟨next, first, later⟩ := Option.bind_eq_some_iff.mp due
    exact ih (before.step (State.step first)) later

/-- A cycle for a key is under way at a controller. -/
def Serves (setup : Setup ι) (s : State ι) (controller : Nat) (key : String) (i : ι) : Prop :=
  (s.phase i).Works ∧ setup.controller i = controller ∧ (setup.request i).key = key

namespace Serves

variable {controller : Nat} {key : String} {i : ι}

omit [DecidableEq ι] in
theorem congr (works : ∀ j, (s'.phase j).Works ↔ (s.phase j).Works) (j : ι) :
    Serves setup s' controller key j ↔ Serves setup s controller key j := by
  unfold Serves
  rw [works j]

/-- A request that is let in is served from then on. -/
theorem admitted_iff {course : Course} {f : InFlight} (j : ι) :
    Serves setup ((s.enter i (.calling course)).hold (setup.controller i) f) controller key j ↔
      (j = i ∧ setup.controller i = controller ∧ (setup.request i).key = key) ∨
        (j ≠ i ∧ Serves setup s controller key j) := by
  unfold Serves State.enter State.hold
  by_cases here : j = i
  · subst here
    simp [Phase.Works]
  · simp [here]

/-- A cycle that ends is the only one that does not go on. -/
theorem ended_iff {report : Report} {f : InFlight} (j : ι) :
    Serves setup ((s.enter i (.finished report)).hold (setup.controller i) f) controller key j ↔
      j ≠ i ∧ Serves setup s controller key j := by
  unfold Serves State.enter State.hold
  by_cases here : j = i
  · subst here
    simp [Phase.Works]
  · simp [here]

end Serves

/-- What every step keeps. -/
structure KeysHeld (setup : Setup ι) (s : State ι) : Prop where
  /-- The keys that a controller holds are those of the cycles under way. -/
  keys : ∀ controller key,
    key ∈ (s.inFlight controller).keys ↔ ∃ i, Serves setup s controller key i
  alone : ∀ controller key i j,
    Serves setup s controller key i → Serves setup s controller key j → i = j
  nodup : ∀ controller, (s.inFlight controller).keys.Nodup
  /-- Who has not arrived has made no call. -/
  silent : ∀ i, s.phase i = .arriving → s.transcript i = []

namespace KeysHeld

variable {i : ι}

omit [DecidableEq ι] in
theorem start : KeysHeld setup {} where
  keys controller key := by simp [Serves, Phase.Works]
  alone controller key i j serves _ := serves.1.elim
  nodup controller := List.nodup_nil
  silent i _ := rfl

omit [DecidableEq ι] in
/-- As long as nobody begins or ends, the keys stay as they are. -/
theorem congr (held : KeysHeld setup s) (inFlight : s'.inFlight = s.inFlight)
    (works : ∀ j, (s'.phase j).Works ↔ (s.phase j).Works)
    (silent : ∀ j, s'.phase j = .arriving → s'.transcript j = []) : KeysHeld setup s' where
  keys controller key := by
    rw [inFlight, held.keys]
    exact exists_congr fun j => (Serves.congr works j).symm
  alone controller key j k serves serves' :=
    held.alone controller key j k ((Serves.congr works j).mp serves)
      ((Serves.congr works k).mp serves')
  nodup controller := by
    rw [inFlight]
    exact held.nodup controller
  silent := silent

/-- A cycle that enters another phase of its work, or is turned away, holds on to what it
holds. -/
theorem enter (held : KeysHeld setup s) {phase : Phase} (works : phase.Works ↔ (s.phase i).Works)
    (begun : phase ≠ .arriving) : KeysHeld setup (s.enter i phase) := by
  refine held.congr rfl (fun j => ?_) fun j arriving => ?_
  · by_cases here : j = i
    · subst here
      simpa [State.enter] using works
    · simp [State.enter, here]
  · by_cases here : j = i
    · subst here
      exact absurd (by simpa [State.enter] using arriving) begun
    · exact held.silent j (by simpa [State.enter, here] using arriving)

theorem called (held : KeysHeld setup s) {course : Course} (calling : s.phase i = .calling course)
    (reply : course.call.Reply) : KeysHeld setup (s.called i course reply) := by
  have entered : KeysHeld setup (s.enter i (.answered course reply)) :=
    held.enter (by simp [calling, Phase.Works]) (by simp)
  refine entered.congr rfl (fun j => Iff.rfl) fun j arriving => ?_
  by_cases here : j = i
  · subst here
    simp [State.called] at arriving
  · simpa [State.called, here] using held.silent j (by simpa [State.called, here] using arriving)

/-- A key is taken while nobody serves it. -/
theorem admitted (held : KeysHeld setup s) (arriving : s.phase i = .arriving)
    (free : (setup.request i).key ∉ (s.inFlight (setup.controller i)).keys) {course : Course} :
    KeysHeld setup ((s.enter i (.calling course)).hold (setup.controller i)
      ⟨(setup.request i).key :: (s.inFlight (setup.controller i)).keys⟩) := by
  have idle : ∀ controller key j, Serves setup s controller key j → j ≠ i := by
    rintro controller key j serves rfl
    simp [Serves, arriving, Phase.Works] at serves
  have nobody : ∀ j, ¬ Serves setup s (setup.controller i) (setup.request i).key j :=
    fun j serves => free ((held.keys _ _).mpr ⟨j, serves⟩)
  constructor
  case keys =>
    intro controller key
    simp only [Serves.admitted_iff]
    by_cases here : controller = setup.controller i
    · subst here
      simp only [State.hold, Function.update_self, List.mem_cons, held.keys]
      constructor
      · rintro (rfl | ⟨j, serves⟩)
        · exact ⟨i, .inl ⟨rfl, trivial, rfl⟩⟩
        · exact ⟨j, .inr ⟨idle _ _ j serves, serves⟩⟩
      · rintro ⟨j, ⟨-, -, rfl⟩ | ⟨-, serves⟩⟩
        · exact .inl rfl
        · exact .inr ⟨j, serves⟩
    · simp only [State.hold, State.enter, Function.update_of_ne here, held.keys]
      constructor
      · rintro ⟨j, serves⟩
        exact ⟨j, .inr ⟨idle _ _ j serves, serves⟩⟩
      · rintro ⟨j, ⟨-, rfl, -⟩ | ⟨-, serves⟩⟩
        · exact absurd rfl here
        · exact ⟨j, serves⟩
  case alone =>
    intro controller key j k serves serves'
    rw [Serves.admitted_iff] at serves serves'
    rcases serves with ⟨rfl, rfl, rfl⟩ | ⟨-, serves⟩ <;>
      rcases serves' with ⟨rfl, here⟩ | ⟨-, serves'⟩
    · rfl
    · exact absurd serves' (nobody k)
    · obtain ⟨rfl, rfl⟩ := here
      exact absurd serves (nobody j)
    · exact held.alone controller key j k serves serves'
  case nodup =>
    intro controller
    by_cases here : controller = setup.controller i
    · subst here
      simpa [State.hold] using ⟨free, held.nodup _⟩
    · simpa [State.hold, State.enter, here] using held.nodup controller
  case silent =>
    intro j arriving
    by_cases here : j = i
    · subst here
      simp [State.hold, State.enter] at arriving
    · exact held.silent j (by simpa [State.hold, State.enter, here] using arriving)

/-- A cycle that ends gives back its own key, which nobody else serves. -/
theorem ended (held : KeysHeld setup s) (works : (s.phase i).Works) (report : Report) :
    KeysHeld setup ((s.enter i (.finished report)).hold (setup.controller i)
      ((s.inFlight (setup.controller i)).release (setup.request i).key)) := by
  have own : Serves setup s (setup.controller i) (setup.request i).key i := ⟨works, rfl, rfl⟩
  constructor
  case keys =>
    intro controller key
    simp only [Serves.ended_iff]
    by_cases here : controller = setup.controller i
    · subst here
      simp only [State.hold, Function.update_self, InFlight.release,
        (held.nodup _).mem_erase_iff, held.keys]
      constructor
      · rintro ⟨different, j, serves⟩
        refine ⟨j, ?_, serves⟩
        rintro rfl
        exact different serves.2.2.symm
      · rintro ⟨j, other, serves⟩
        refine ⟨?_, j, serves⟩
        rintro rfl
        exact other (held.alone _ _ j i serves own)
    · simp only [State.hold, State.enter, Function.update_of_ne here, held.keys]
      constructor
      · rintro ⟨j, serves⟩
        refine ⟨j, ?_, serves⟩
        rintro rfl
        exact here serves.2.1.symm
      · rintro ⟨j, -, serves⟩
        exact ⟨j, serves⟩
  case alone =>
    intro controller key j k serves serves'
    exact held.alone controller key j k ((Serves.ended_iff j).mp serves).2
      ((Serves.ended_iff k).mp serves').2
  case nodup =>
    intro controller
    by_cases here : controller = setup.controller i
    · subst here
      simpa [State.hold, InFlight.release] using (held.nodup _).erase _
    · simpa [State.hold, State.enter, here] using held.nodup controller
  case silent =>
    intro j arriving
    by_cases here : j = i
    · subst here
      simp [State.hold, State.enter] at arriving
    · exact held.silent j (by simpa [State.hold, State.enter, here] using arriving)

theorem step (held : KeysHeld setup s) (step : Step setup s s') : KeysHeld setup s' := by
  cases step with
  | @arrived i arriving =>
    by_cases taken : (setup.request i).key ∈ (s.inFlight (setup.controller i)).keys
    · rw [State.arrived_of_held taken]
      exact held.enter (by simp [arriving, Phase.Works]) (by simp)
    · rw [State.arrived_of_free taken]
      exact held.admitted arriving taken
  | called calling reply => exact held.called calling reply
  | @taken i course reply answered =>
    unfold State.taken
    split
    · exact held.enter (by simp [answered, Phase.Works]) (by simp)
    · exact held.enter (by simp [answered, Phase.Works]) (by simp)
    · exact held.ended (by simp [answered, Phase.Works]) _

end KeysHeld

theorem Reachable.keysHeld (reachable : Reachable setup s) : KeysHeld setup s := by
  induction reachable with
  | start => exact .start
  | step before step ih => exact ih.step step

/-- A request that has been answered stays so and makes no more calls. -/
theorem Step.finished (step : Step setup s s') {i : ι} {report : Report}
    (closed : s.phase i = .finished report) :
    s'.phase i = .finished report ∧ s'.transcript i = s.transcript i := by
  cases step with
  | @arrived j arriving =>
    have other : i ≠ j := by
      rintro rfl
      cases closed.symm.trans arriving
    unfold State.arrived
    split <;> simp [State.enter, State.hold, other, closed]
  | @called j course calling reply =>
    have other : i ≠ j := by
      rintro rfl
      cases closed.symm.trans calling
    simp [State.called, other, closed]
  | @taken j course reply answered =>
    have other : i ≠ j := by
      rintro rfl
      cases closed.symm.trans answered
    unfold State.taken
    split <;> simp [State.enter, State.hold, other, closed]

theorem State.run?_finished {moves : List (Move ι)} (due : s.run? setup moves = some s') {i : ι}
    {report : Report} (closed : s.phase i = .finished report) :
    s'.phase i = .finished report ∧ s'.transcript i = s.transcript i := by
  induction moves generalizing s with
  | nil =>
    obtain rfl := Option.some.inj due
    exact ⟨closed, rfl⟩
  | cons move rest ih =>
    obtain ⟨next, first, later⟩ := Option.bind_eq_some_iff.mp due
    obtain ⟨still, same⟩ := (State.step first).finished closed
    obtain ⟨last, same'⟩ := ih later still
    exact ⟨last, same'.trans same⟩

/-- A cycle goes on, or it ends and its key is free. -/
theorem Step.goesOn_or_released (step : Step setup s s') (held : KeysHeld setup s) {i : ι}
    (works : (s.phase i).Works) :
    (s'.phase i).Works ∨ (∃ report, s'.phase i = .finished report) ∧
      (setup.request i).key ∉ (s'.inFlight (setup.controller i)).keys := by
  cases step with
  | @arrived j arriving =>
    have other : i ≠ j := by
      rintro rfl
      simp [arriving, Phase.Works] at works
    unfold State.arrived
    split <;> simp [State.enter, State.hold, other, works]
  | @called j course calling reply =>
    by_cases same : i = j
    · subst same
      simp [State.called, Phase.Works]
    · simp [State.called, same, works]
  | @taken j course reply answered =>
    unfold State.taken
    by_cases same : i = j
    · subst same
      split
      · simp [State.enter, Phase.Works]
      · simp [State.enter, Phase.Works]
      · rename_i report _
        refine .inr ⟨⟨report, by simp [State.enter, State.hold]⟩, ?_⟩
        simpa [State.hold, InFlight.release] using (held.nodup _).not_mem_erase
    · split <;> simp [State.enter, State.hold, same, works]

/-- How the requests of a controller are kept apart by their keys. -/
structure Exclusive (setup : Setup ι) (s : State ι) : Prop where
  /-- The keys held are those of the cycles under way, and each is held by one of them. -/
  keys : ∀ controller key,
    key ∈ (s.inFlight controller).keys ↔ ∃! i, Serves setup s controller key i
  once : ∀ controller, (s.inFlight controller).keys.Nodup
  /-- No two cycles for one container of a service are under way. -/
  alone : ∀ i j, (s.phase i).Works → (s.phase j).Works →
    setup.controller i = setup.controller j →
    (setup.request i).cluster = (setup.request j).cluster →
    (setup.request i).service = (setup.request j).service →
    (setup.request i).container = (setup.request j).container → i = j
  /-- A request that arrives while its key is held is superseded and left at that: it makes
  no call, and whoever holds the key keeps it. -/
  turnedAway : ∀ i, s.phase i = .arriving →
    (setup.request i).key ∈ (s.inFlight (setup.controller i)).keys →
    ∃ detail, s.step? setup (.arrive i) =
        some (s.enter i (.finished ⟨.superseded detail none, [.idle]⟩)) ∧
      ∀ moves later, (s.enter i (.finished ⟨.superseded detail none, [.idle]⟩)).run? setup moves =
          some later →
        later.phase i = .finished ⟨.superseded detail none, [.idle]⟩ ∧ later.transcript i = []
  /-- Any other request that arrives is served. -/
  letIn : ∀ i, s.phase i = .arriving →
    (setup.request i).key ∉ (s.inFlight (setup.controller i)).keys →
    ∃ later, s.step? setup (.arrive i) = some later ∧ (later.phase i).Works
  /-- Whatever a cycle ends with, its key is free from then on. -/
  released : ∀ i move later, (s.phase i).Works → s.step? setup move = some later →
    (later.phase i).Works ∨ (∃ report, later.phase i = .finished report) ∧
      (setup.request i).key ∉ (later.inFlight (setup.controller i)).keys
  /-- When no cycle of a controller is under way, it holds no key. -/
  emptied : ∀ controller, (∀ i, setup.controller i = controller → ¬ (s.phase i).Works) →
    (s.inFlight controller).keys = []

/-- Whatever the collaborators answer and in whichever order requests arrive and go on, a
controller holds the keys of the cycles that are under way, each for one cycle. -/
theorem keys_held_by_one (reachable : Reachable setup s) : Exclusive setup s := by
  have held := reachable.keysHeld
  constructor
  case keys =>
    intro controller key
    rw [held.keys]
    constructor
    · rintro ⟨i, serves⟩
      exact ⟨i, serves, fun j serves' => held.alone controller key j i serves' serves⟩
    · rintro ⟨i, serves, -⟩
      exact ⟨i, serves⟩
  case once => exact held.nodup
  case alone =>
    intro i j works works' controller cluster service container
    have key : (setup.request i).key = (setup.request j).key := by
      simp only [Request.key, cluster, service, container]
    exact held.alone _ _ i j ⟨works, controller, key⟩ ⟨works', rfl, rfl⟩
  case turnedAway =>
    intro i arriving taken
    refine ⟨s!"a scaling cycle for {(setup.request i).key} is already in flight", ?_, ?_⟩
    · simp only [State.step?, arriving, State.arrived_of_held taken]
      rfl
    · intro moves later due
      obtain ⟨closed, same⟩ := State.run?_finished due (Function.update_self i _ s.phase)
      exact ⟨closed, same.trans (held.silent i arriving)⟩
  case letIn =>
    intro i arriving free
    refine ⟨s.arrived setup i, by simp only [State.step?, arriving], ?_⟩
    simp [State.arrived_of_free free, State.enter, State.hold, Phase.Works]
  case released =>
    intro i move later works due
    exact (State.step due).goesOn_or_released held works
  case emptied =>
    intro controller idle
    rw [List.eq_nil_iff_forall_not_mem]
    intro key member
    obtain ⟨i, works, here, -⟩ := (held.keys controller key).mp member
    exact idle i here works

/-- Three requests to one controller, the third for another service, and a fourth to
another controller for what the first is for. -/
def counter : Setup (Fin 4) where
  rules _ := {}
  controller i := if i = 3 then 1 else 0
  request i :=
    { cluster := "main", service := if i = 2 then "web" else "api", container := "api"
      family := "api", alarm := "memory" }

/-- The first request is served with an error that is tried again and one that is not;
the others arrive in between. -/
def counterMoves : List (Move (Fin 4)) :=
  [.arrive 0, .call 0 fun _ => .error (.transient "no answer"), .arrive 1, .arrive 2, .take 0,
    .arrive 3, .call 0 fun _ => .error (.notFound "no such service"), .take 0]

/-- By then the first request has given its key back, the second was turned away, and the
others hold theirs. -/
theorem counter_keys_held : ∃ s, ({} : State (Fin 4)).run? counter counterMoves = some s ∧
    ((s.inFlight 0).keys = ["main/web/api"] ∧ (s.inFlight 1).keys = ["main/api/api"] ∧
      (s.transcript 1).isEmpty) ∧ Exclusive counter s := by
  have ran : (({} : State (Fin 4)).run? counter counterMoves).map
      (fun s => ((s.inFlight 0).keys, (s.inFlight 1).keys, (s.transcript 1).isEmpty)) =
        some (["main/web/api"], ["main/api/api"], true) := by decide +kernel
  obtain ⟨s, reached, values⟩ := Option.map_eq_some_iff.mp ran
  simp only [Prod.mk.injEq] at values
  exact ⟨s, reached, values, keys_held_by_one (Reachable.start.run reached)⟩

/-- What the stores of an interleaving leave to see here. -/
def State.ofInterleaving (s : Interleaving.State ι) : State ι := ⟨s.inFlight, s.phase, s.transcript⟩

open Interleaving.State (transcript_called_self transcript_called_other) in
theorem Step.of_interleaving {s s' : Interleaving.State ι} (step : Interleaving.Step setup s s') :
    Step setup (.ofInterleaving s) (.ofInterleaving s') := by
  cases step with
  | @turnedAway i arriving held =>
    have arrived : Step setup (.ofInterleaving s) _ := .arrived (i := i) arriving
    rw [State.arrived_of_held (s := .ofInterleaving s) held] at arrived
    exact arrived
  | @admitted i arriving free =>
    have arrived : Step setup (.ofInterleaving s) _ := .arrived (i := i) arriving
    rw [State.arrived_of_free (s := .ofInterleaving s) free] at arrived
    exact arrived
  | @called i course reply after calling fault attempted =>
    have same : State.ofInterleaving (s.called i course reply after) =
        (State.ofInterleaving s).called i course reply := by
      unfold State.ofInterleaving State.called
      congr 1
      funext j
      by_cases same : j = i
      · subst same
        simp [transcript_called_self]
      · simp [transcript_called_other same, same]
    rw [same]
    exact .called calling reply
  | @resumed i course next reply answered goes =>
    have same : State.ofInterleaving (s.enter i (.calling next)) =
        (State.ofInterleaving s).taken setup i course reply := by
      unfold State.taken
      split <;> rename_i onward <;> rw [onward] at goes <;> cases goes
      all_goals rfl
    rw [same]
    exact .taken answered
  | @ended i course reply report answered ends =>
    have same : State.ofInterleaving ((s.enter i (.finished report)).hold (setup.controller i)
        ((s.inFlight (setup.controller i)).release (setup.request i).key)) =
        (State.ofInterleaving s).taken setup i course reply := by
      unfold State.taken
      split <;> rename_i onward <;> rw [onward] at ends <;> cases ends
      rfl
    rw [same]
    exact .taken answered

theorem Reachable.of_interleaving {stores : Stores} {s : Interleaving.State ι}
    (reachable : Interleaving.Reachable setup stores s) :
    Reachable setup (.ofInterleaving s) := by
  induction reachable with
  | start => exact .start
  | step before due ih => exact ih.step (.of_interleaving (Interleaving.State.step due))

end Admission
end Headroom
