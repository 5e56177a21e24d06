import Headroom.Proofs.Admission
import Headroom.Proofs.Places
import Headroom.Proofs.Planning

/-!
Two cycles whose requests have no place of the stores in common. Each call of a cycle is
befallen by what the cycle's own script says, and the cycles take turns in any order.
Every state of such a run is made up of two worlds, in each of which one of the cycles has
got as far with nobody else there (`Parted`). So each cycle reports what it reports alone,
and the stores end up as if one had been served after the other (`cycles_separate`).
-/
namespace Headroom.Separation

open Headroom.Cycle
open Headroom.Interleaving

/-- What befalls the calls of a cycle: those of each operation are counted from zero. -/
abbrev Script := Operation → Nat → Fault

/-- What befalls a call that follows these. -/
def Script.fault (script : Script) (transcript : List Exchange) (call : Call) : Fault :=
  script call.operation (transcript.countP (·.call.operation = call.operation))

/-- Make a call that is befallen by what the script says, and note it. -/
def Script.perform (script : Script) (w : Stores × List Exchange) (call : Call) :
    call.Reply × (Stores × List Exchange) :=
  let made := w.1.attempt call (script.fault w.2 call)
  (made.1, made.2, w.2 ++ [⟨call, made.1⟩])

/-- Two worlds that look the same to the cycle of a request, which has made the same calls
in both. -/
structure Beside (r : Request) (v w : Stores × List Exchange) : Prop where
  transcript : v.2 = w.2
  owned : ∀ p, r.Owns p → v.1.SameAt w.1 p

/-- Both worlds went through the same rollouts from here to there. -/
def RolledAlike (v v' w w' : Stores) : Prop :=
  ∃ placed, v'.fleet.rollouts = v.fleet.rollouts ++ placed ∧
    w'.fleet.rollouts = w.fleet.rollouts ++ placed

theorem RolledAlike.trans {v v' v'' w w' w'' : Stores} (first : RolledAlike v v' w w')
    (later : RolledAlike v' v'' w' w'') : RolledAlike v v'' w w'' := by
  obtain ⟨placed, here, there⟩ := first
  obtain ⟨more, here', there'⟩ := later
  refine ⟨placed ++ more, ?_, ?_⟩
  · rw [here', here, List.append_assoc]
  · rw [there', there, List.append_assoc]

variable {rules : Rules} {script : Script} {r : Request} {v w : Stores × List Exchange}

theorem Beside.call (beside : Beside r v w) (script : Script) {call : Call}
    (owns : r.Owns call.place) :
    (script.perform v call).1 = (script.perform w call).1 ∧
      Beside r (script.perform v call).2 (script.perform w call).2 ∧
      RolledAlike v.1 (script.perform v call).2.1 w.1 (script.perform w call).2.1 := by
  obtain ⟨s, calls⟩ := v
  obtain ⟨t, calls'⟩ := w
  obtain rfl : calls = calls' := beside.transcript
  obtain ⟨reply, kept, rollouts⟩ :=
    Stores.attempt_alike (beside.owned call.place owns) (script.fault calls call)
  refine ⟨reply, ⟨?_, fun p owns => kept p (beside.owned p owns)⟩, rollouts⟩
  simp only [Script.perform, reply]

/-- The course of a request's cycle, over a sound registry. -/
structure Ready (r : Request) (s : Stores) (c : Course) : Prop where
  request : c.request = r
  family : c.stage.KeepsFamily r
  sound : s.registry.Sound

theorem Ready.owns {s : Stores} {c : Course} (ready : Ready r s c) : r.Owns c.call.place := by
  obtain ⟨request, stage, attempt, path⟩ := c
  obtain rfl : request = r := ready.request
  exact Stage.place_owned ready.family

theorem Ready.start {s : Stores} (sound : s.registry.Sound) : Ready r s (Course.start r) :=
  ⟨rfl, trivial, sound⟩

/-- A reply leaves a cycle over, or ready for its next call. -/
theorem Ready.answer {s after : Stores} {c : Course} (ready : Ready r s c) {fault : Fault}
    {reply : c.call.Reply} (attempted : s.Attempted c.call fault reply after) :
    ∀ next, (c.answer rules reply).next.standing = .due next → Ready r after next := by
  obtain ⟨request, stage, attempt, walked⟩ := c
  obtain rfl : request = r := ready.request
  have sound := attempted.sound ready.sound
  refine Course.answer_cases
    (motive := fun standing => ∀ next, standing = .due next → Ready request after next)
    rules _ reply ?_ ?_ ?_
  · rintro detail - - next ⟨⟩
    exact ⟨rfl, ready.family, sound⟩
  · rintro stage path advance - next ⟨⟩
    refine ⟨rfl, ?_, sound⟩
    cases advance with
    | @planned current candidate expected plan =>
      have latest : (after.registry.history request.family).getLast? = some current :=
        attempted.tells
      exact (Sizing.Policy.plan_family plan).trans (sound.family (List.mem_of_getLast? latest))
    | confirmed candidate same => exact ready.family
    | _ => trivial
  · rintro outcome path - - next ⟨⟩

/-- A cycle goes the same way in two worlds that look the same to it. -/
theorem run_beside (rules : Rules) (script : Script) {c : Course} (ready : Ready r v.1 c)
    (ready' : Ready r w.1 c) (beside : Beside r v w) :
    (c.run rules script.perform v).report = (c.run rules script.perform w).report ∧
      Beside r (c.run rules script.perform v).world (c.run rules script.perform w).world ∧
      RolledAlike v.1 (c.run rules script.perform v).world.1 w.1
        (c.run rules script.perform w).world.1 := by
  induction v, c using Course.run_induction rules script.perform generalizing w with
  | ended v c report ends =>
    obtain ⟨reply, after, rolled⟩ := beside.call script ready.owns
    have ends' := ends
    rw [reply] at ends'
    rw [Course.run_of_ended ends, Course.run_of_ended ends']
    exact ⟨rfl, after, rolled⟩
  | due v c next goes ih =>
    obtain ⟨reply, after, rolled⟩ := beside.call script ready.owns
    have goes' := goes
    rw [reply] at goes'
    rw [Course.run_of_due goes, Course.run_of_due goes']
    obtain ⟨report, last, later⟩ := ih (ready.answer (Stores.attempted rfl) next goes)
      (ready'.answer (Stores.attempted rfl) next goes') after
    exact ⟨report, last, rolled.trans later⟩

/-- A world that has changed at places of the request at most. -/
structure Within (r : Request) (s after : Stores) : Prop where
  elsewhere : ∀ p, ¬ r.Owns p → s.SameAt after p
  published : after.monitor.published = s.monitor.published
  sound : s.registry.Sound → after.registry.Sound

theorem Within.refl (r : Request) (s : Stores) : Within r s s :=
  ⟨fun p _ => .refl s p, rfl, id⟩

theorem Within.call {s t after : Stores} (within : Within r s t) {call : Call} {fault : Fault}
    {reply : call.Reply} (attempted : t.Attempted call fault reply after)
    (owns : r.Owns call.place) : Within r s after where
  elsewhere p off := by
    refine (within.elsewhere p off).trans (attempted.elsewhere ?_)
    rintro rfl
    exact off owns
  published := attempted.published.trans within.published
  sound start := attempted.sound (within.sound start)

/-- A run leaves alone what is not its request's. -/
theorem run_within {c : Course} (ready : Ready r w.1 c) :
    Within r w.1 (c.run rules script.perform w).world.1 := by
  refine (Course.run_keeps (P := fun w' standing => Within r w.1 w'.1 ∧
    ∀ next, standing = .due next → Ready r w'.1 next) (fun w' c before => ?_) w c ?_).1
  · obtain ⟨within, ready⟩ := before
    exact ⟨within.call (Stores.attempted rfl) (ready c rfl).owns,
      (ready c rfl).answer (Stores.attempted rfl)⟩
  · refine ⟨.refl r w.1, ?_⟩
    rintro _ ⟨⟩
    exact ready

variable {setup : Setup Bool} {scripts : Bool → Script} {stores : Stores} {s : State Bool}

/-- Serve the request of one cycle with nothing else going on. -/
def alone (setup : Setup Bool) (scripts : Bool → Script) (i : Bool) (stores : Stores) :
    Course.Finished (Stores × List Exchange) :=
  Controller.serve (setup.rules (setup.controller i)) (scripts i).perform (stores, [])
    (setup.request i)

/-- What a cycle does next. -/
def nextMove (scripts : Bool → Script) (s : State Bool) (i : Bool) : Move Bool :=
  match s.phase i with
  | .arriving => .arrive i
  | .calling course => .call i ((scripts i).fault (s.transcript i) course.call)
  | .answered .. | .finished _ => .take i

/-- The state after a cycle had its turn, which it lets pass when it is over. -/
def turn (setup : Setup Bool) (scripts : Bool → Script) (s : State Bool) (i : Bool) : State Bool :=
  (s.step? setup (nextMove scripts s i)).getD s

/-- The state after turns in some order. -/
def play (setup : Setup Bool) (scripts : Bool → Script) (stores : Stores) (turns : List Bool) :
    State Bool :=
  turns.foldl (turn setup scripts) { stores }

theorem Reachable.turn (reachable : Reachable setup stores s) (i : Bool) :
    Reachable setup stores (turn setup scripts s i) := by
  unfold Separation.turn
  cases due : s.step? setup (nextMove scripts s i) with
  | none => exact reachable
  | some s' => exact reachable.step due

/-- Nobody holds the key of a request that is about to arrive. -/
theorem Reachable.key_free (reachable : Reachable setup stores s)
    (keys : (setup.request false).key ≠ (setup.request true).key) {i : Bool}
    (arriving : s.phase i = .arriving) :
    (setup.request i).key ∉ (s.inFlight (setup.controller i)).keys := by
  have held := (Admission.Reachable.of_interleaving reachable).keysHeld
  intro member
  obtain ⟨j, works, -, key⟩ := (held.keys _ _).mp member
  have works : (s.phase j).Works := works
  cases i <;> cases j
  · simp [arriving, Phase.Works] at works
  · exact keys key.symm
  · exact keys key
  · simp [arriving, Phase.Works] at works

/-- Where a cycle stands in its own world: from there it comes to what it comes to alone. -/
def Leads (setup : Setup Bool) (scripts : Bool → Script) (stores : Stores) (i : Bool)
    (w : Stores × List Exchange) : Option Standing → Prop
  | none => w = (stores, [])
  | some (.due course) =>
    Ready (setup.request i) w.1 course ∧
      (course.run (setup.rules (setup.controller i)) (scripts i).perform w).report =
        (alone setup scripts i stores).report ∧
      (course.run (setup.rules (setup.controller i)) (scripts i).perform w).world =
        (alone setup scripts i stores).world
  | some (.ended report) =>
    report = (alone setup scripts i stores).report ∧ w = (alone setup scripts i stores).world

/-- A cycle's own world, in which it has got as far as in the shared one. -/
structure Solo (setup : Setup Bool) (scripts : Bool → Script) (stores : Stores) (s : State Bool)
    (i : Bool) (w : Stores × List Exchange) : Prop where
  beside : Beside (setup.request i) (s.stores, s.transcript i) w
  within : Within (setup.request i) stores w.1
  leads : Leads setup scripts stores i w (s.standing? setup i)

/-- The shared world is made up of the two worlds of its own that each cycle has. -/
structure Parted (setup : Setup Bool) (scripts : Bool → Script) (stores : Stores)
    (s : State Bool) (w : Bool → Stores × List Exchange) : Prop where
  solo : ∀ i, Solo setup scripts stores s i (w i)
  elsewhere : ∀ p, (∀ i, ¬ (setup.request i).Owns p) → stores.SameAt s.stores p
  published : s.stores.monitor.published = stores.monitor.published
  rollouts : ∃ placed : Bool → List Revision,
    (∀ i, (w i).1.fleet.rollouts = stores.fleet.rollouts ++ placed i) ∧
      s.stores.fleet.rollouts.Perm (stores.fleet.rollouts ++ (placed false ++ placed true))

namespace Parted

variable {w : Bool → Stores × List Exchange} {i : Bool}

theorem start : Parted setup scripts stores { stores } fun _ => (stores, []) where
  solo i := ⟨⟨rfl, fun p _ => .refl stores p⟩, .refl _ _, rfl⟩
  elsewhere p _ := .refl stores p
  published := rfl
  rollouts := ⟨fun _ => [], by simp, by simp⟩

/-- Nothing changes for a world as long as its cycle stands where it did. -/
theorem congr {s' : State Bool} (parted : Parted setup scripts stores s w)
    (standing : ∀ j, s'.standing? setup j = s.standing? setup j) (same : s'.stores = s.stores)
    (log : s'.log = s.log) : Parted setup scripts stores s' w where
  solo j := by
    obtain ⟨beside, within, leads⟩ := parted.solo j
    refine ⟨?_, within, by rw [standing]; exact leads⟩
    rw [same, State.transcript_of_log log]
    exact beside
  elsewhere := by
    rw [same]
    exact parted.elsewhere
  published := by
    rw [same]
    exact parted.published
  rollouts := by
    rw [same]
    exact parted.rollouts

/-- A cycle that takes a reply stands where it stood with the reply on its way. -/
theorem enter (parted : Parted setup scripts stores s w) {phase : Phase}
    (same : (s.enter i phase).standing? setup i = s.standing? setup i) :
    Parted setup scripts stores (s.enter i phase) w := by
  refine parted.congr (fun j => ?_) rfl rfl
  by_cases here : j = i
  · subst here
    exact same
  · exact State.standing?_enter_other here phase

theorem hold (parted : Parted setup scripts stores s w) (controller : Nat) (f : InFlight) :
    Parted setup scripts stores (s.hold controller f) w :=
  parted.congr (fun _ => rfl) rfl rfl

/-- A cycle begins in its own world when it does in the shared one. -/
theorem admitted (parted : Parted setup scripts stores s w) (sound : stores.registry.Sound)
    (arriving : s.phase i = .arriving) (f : InFlight) :
    Parted setup scripts stores
      ((s.enter i (.calling (Course.start (setup.request i)))).hold (setup.controller i) f) w where
  solo j := by
    obtain ⟨beside, within, leads⟩ := parted.solo j
    refine ⟨beside, within, ?_⟩
    by_cases here : j = i
    · subst here
      simp only [State.standing?, arriving] at leads
      simp only [State.standing?, State.enter, State.hold, Function.update_self]
      rw [show w j = (stores, []) from leads]
      exact ⟨.start sound, rfl, rfl⟩
    · have same : (s.enter i (.calling (Course.start (setup.request i)))).standing? setup j =
          s.standing? setup j := State.standing?_enter_other here _
      exact same ▸ leads
  elsewhere := parted.elsewhere
  published := parted.published
  rollouts := parted.rollouts

theorem owns (parted : Parted setup scripts stores s w) {course : Course}
    (calling : s.phase i = .calling course) : (setup.request i).Owns course.call.place := by
  have leads := (parted.solo i).leads
  simp only [State.standing?, calling] at leads
  exact leads.1.owns

/-- The call of a cycle in its own world, as in the shared one. -/
theorem solo_called (parted : Parted setup scripts stores s w) {course : Course}
    (calling : s.phase i = .calling course) {reply : course.call.Reply} {after : Stores}
    (attempted : s.stores.attempt course.call
      ((scripts i).fault (s.transcript i) course.call) = (reply, after)) :
    Solo setup scripts stores (s.called i course reply after) i
        ((scripts i).perform (w i) course.call).2 ∧
      RolledAlike s.stores after (w i).1 ((scripts i).perform (w i) course.call).2.1 := by
  obtain ⟨beside, within, leads⟩ := parted.solo i
  simp only [State.standing?, calling] at leads
  obtain ⟨ready, report, world⟩ := leads
  have made : (scripts i).perform (s.stores, s.transcript i) course.call =
      (reply, after, s.transcript i ++ [⟨course.call, reply⟩]) := by
    simp only [Script.perform, attempted]
  obtain ⟨same, onward, rolled⟩ := beside.call (scripts i) ready.owns
  rw [made] at same onward rolled
  refine ⟨⟨?_, within.call (Stores.attempted rfl) ready.owns, ?_⟩, rolled⟩
  · rw [State.transcript_called_self]
    exact onward
  · rw [State.standing?_called_self]
    have same : reply = ((scripts i).perform (w i) course.call).1 := same
    rw [same]
    generalize goes : (course.answer (setup.rules (setup.controller i))
      ((scripts i).perform (w i) course.call).1).next.standing = next
    cases next with
    | ended last =>
      rw [Course.run_of_ended goes] at report world
      exact ⟨report, world⟩
    | due next =>
      rw [Course.run_of_due goes] at report world
      exact ⟨ready.answer (Stores.attempted rfl) next goes, report, world⟩

/-- The call of one cycle is nothing to the other. -/
theorem other_called (parted : Parted setup scripts stores s w)
    (apart : (setup.request i).Apart (setup.request !i)) {course : Course}
    (calling : s.phase i = .calling course) {fault : Fault} {reply : course.call.Reply}
    {after : Stores} (attempted : s.stores.Attempted course.call fault reply after) :
    Solo setup scripts stores (s.called i course reply after) (!i) (w !i) := by
  obtain ⟨beside, within, leads⟩ := parted.solo !i
  have other : (!i) ≠ i := by cases i <;> decide
  refine ⟨⟨?_, fun p owned => ?_⟩, within, ?_⟩
  · rw [State.transcript_called_other other]
    exact beside.transcript
  · have elsewhere : p ≠ course.call.place := by
      rintro rfl
      exact apart.not_owns (parted.owns calling) owned
    exact (attempted.elsewhere elsewhere).symm.trans (beside.owned p owned)
  · rw [State.standing?_called_other other]
    exact leads

theorem called (parted : Parted setup scripts stores s w)
    (apart : (setup.request i).Apart (setup.request !i)) {course : Course}
    (calling : s.phase i = .calling course) {reply : course.call.Reply} {after : Stores}
    (made : s.stores.attempt course.call
      ((scripts i).fault (s.transcript i) course.call) = (reply, after)) :
    Parted setup scripts stores (s.called i course reply after)
      (Function.update w i ((scripts i).perform (w i) course.call).2) := by
  have attempted := Stores.attempted made
  obtain ⟨own, rolled⟩ := parted.solo_called calling made
  constructor
  case solo =>
    intro j
    by_cases here : j = i
    · subst here
      rw [Function.update_self]
      exact own
    · obtain rfl : j = !i := by cases i <;> cases j <;> simp_all
      rw [Function.update_of_ne here]
      exact parted.other_called apart calling attempted
  case elsewhere =>
    intro p off
    refine (parted.elsewhere p off).trans (attempted.elsewhere ?_)
    rintro rfl
    exact off i (parted.owns calling)
  case published => exact attempted.published.trans parted.published
  case rollouts =>
    obtain ⟨placed, separate, shared⟩ := parted.rollouts
    obtain ⟨more, here, there⟩ := rolled
    refine ⟨Function.update placed i (placed i ++ more), fun j => ?_, ?_⟩
    · by_cases here : j = i
      · subst here
        simp only [Function.update_self]
        rw [there, separate, List.append_assoc]
      · simp only [Function.update_of_ne here]
        exact separate j
    · show after.fleet.rollouts.Perm _
      rw [here]
      refine (shared.append_right more).trans ?_
      rw [List.append_assoc]
      refine List.Perm.append_left _ ?_
      cases i with
      | false =>
        simp only [Function.update_self, ne_eq, reduceCtorEq, not_false_eq_true,
          Function.update_of_ne, List.append_assoc]
        exact List.Perm.append_left _ List.perm_append_comm
      | true =>
        simp only [Function.update_self, ne_eq, reduceCtorEq, not_false_eq_true,
          Function.update_of_ne, List.append_assoc]
        exact .refl _

/-- Every turn keeps it. -/
theorem turn (parted : Parted setup scripts stores s w) (reachable : Reachable setup stores s)
    (sound : stores.registry.Sound) (keys : (setup.request false).key ≠ (setup.request true).key)
    (apart : (setup.request false).Apart (setup.request true)) (i : Bool) :
    ∃ w', Parted setup scripts stores (turn setup scripts s i) w' := by
  cases here : s.phase i with
  | arriving =>
    have free := InFlight.take?_of_notMem (Reachable.key_free reachable keys here)
    refine ⟨w, ?_⟩
    simp only [Separation.turn, nextMove, State.step?, here, free]
    exact parted.admitted sound here _
  | calling course =>
    have others : (setup.request i).Apart (setup.request !i) := by
      cases i with
      | false => exact apart
      | true => exact apart.symm
    simp only [Separation.turn, nextMove, State.step?, here]
    exact ⟨_, parted.called others here rfl⟩
  | answered course reply =>
    refine ⟨w, ?_⟩
    simp only [Separation.turn, nextMove, State.step?, here]
    cases goes : (course.answer (setup.rules (setup.controller i)) reply).next with
    | again pause next =>
      exact parted.enter (by simp [State.standing?, State.enter, here, goes, Course.Next.standing])
    | proceed next =>
      exact parted.enter (by simp [State.standing?, State.enter, here, goes, Course.Next.standing])
    | finish report =>
      have entered : Parted setup scripts stores (s.enter i (.finished report)) w :=
        parted.enter (by simp [State.standing?, State.enter, here, goes, Course.Next.standing])
      exact entered.hold _ _
  | finished report =>
    refine ⟨w, ?_⟩
    simp only [Separation.turn, nextMove, State.step?, here]
    exact parted

end Parted

/-- Every order of turns keeps it. -/
theorem play_parted (scripts : Bool → Script) (sound : stores.registry.Sound)
    (keys : (setup.request false).key ≠ (setup.request true).key)
    (apart : (setup.request false).Apart (setup.request true)) (turns : List Bool) :
    ∃ w, Parted setup scripts stores (play setup scripts stores turns) w := by
  have kept : ∀ s : State Bool, Reachable setup stores s → (∃ w, Parted setup scripts stores s w) →
      ∃ w, Parted setup scripts stores (turns.foldl (turn setup scripts) s) w := by
    induction turns with
    | nil => exact fun s _ parted => parted
    | cons i rest ih =>
      rintro s reachable ⟨w, parted⟩
      exact ih _ (Reachable.turn reachable i) (parted.turn reachable sound keys apart i)
  exact kept { stores } .start ⟨_, .start⟩

/-- How many turns a cycle may still need. -/
def turnsLeft (rules : Rules) (r : Request) : Phase → Nat
  | .arriving => 2 * (Course.start r).remaining rules + 3
  | .calling course => 2 * course.remaining rules + 2
  | .answered course _ => 2 * course.remaining rules + 1
  | .finished _ => 0

theorem turn_other {i j : Bool} (other : j ≠ i) :
    (turn setup scripts s i).phase j = s.phase j := by
  cases here : s.phase i with
  | arriving =>
    simp only [turn, nextMove, State.step?, here]
    cases (s.inFlight (setup.controller i)).take? (setup.request i).key <;>
      simp [State.enter, State.hold, other]
  | calling course => simp [turn, nextMove, State.step?, here, State.called, other]
  | answered course reply =>
    simp only [turn, nextMove, State.step?, here]
    cases (course.answer (setup.rules (setup.controller i)) reply).next <;>
      simp [State.enter, State.hold, other]
  | finished report => simp [turn, nextMove, State.step?, here]

/-- A turn brings its cycle nearer to the end. -/
theorem turnsLeft_turn (setup : Setup Bool) (scripts : Bool → Script) (s : State Bool) (i : Bool) :
    turnsLeft (setup.rules (setup.controller i)) (setup.request i)
        ((turn setup scripts s i).phase i) ≤
      turnsLeft (setup.rules (setup.controller i)) (setup.request i) (s.phase i) - 1 := by
  cases here : s.phase i with
  | arriving =>
    simp only [turn, nextMove, State.step?, here]
    cases (s.inFlight (setup.controller i)).take? (setup.request i).key <;>
      simp [State.enter, State.hold, turnsLeft]
  | calling course => simp [turn, nextMove, State.step?, here, State.called, turnsLeft]
  | answered course reply =>
    simp only [turn, nextMove, State.step?, here]
    cases goes : (course.answer (setup.rules (setup.controller i)) reply).next with
    | again pause next =>
      have fewer := Course.remaining_again _ course reply pause next goes
      simp only [Option.getD_some, State.enter, Function.update_self, turnsLeft]
      omega
    | proceed next =>
      have fewer := Course.remaining_proceed _ course reply next goes
      simp only [Option.getD_some, State.enter, Function.update_self, turnsLeft]
      omega
    | finish report => simp [State.enter, State.hold, turnsLeft]
  | finished report => simp [turn, nextMove, State.step?, here, turnsLeft]

/-- A cycle that has had enough turns is over, whatever the other one did in between. -/
theorem turnsLeft_play (setup : Setup Bool) (scripts : Bool → Script) (stores : Stores)
    (turns : List Bool) (i : Bool) :
    turnsLeft (setup.rules (setup.controller i)) (setup.request i)
        ((play setup scripts stores turns).phase i) ≤
      turnsLeft (setup.rules (setup.controller i)) (setup.request i) .arriving -
        turns.count i := by
  have nearer : ∀ s : State Bool,
      turnsLeft (setup.rules (setup.controller i)) (setup.request i)
          ((turns.foldl (turn setup scripts) s).phase i) ≤
        turnsLeft (setup.rules (setup.controller i)) (setup.request i) (s.phase i) -
          turns.count i := by
    induction turns with
    | nil => exact fun s => Nat.le_refl _
    | cons j rest ih =>
      intro s
      have later := ih (turn setup scripts s j)
      rw [List.foldl_cons]
      by_cases own : j = i
      · subst own
        have now := turnsLeft_turn setup scripts s j
        rw [List.count_cons_self]
        omega
      · rw [turn_other (Ne.symm own)] at later
        rw [List.count_cons_of_ne own]
        exact later
  exact nearer { stores }

/-- How two cycles get on that have nothing in common. -/
structure Separate (setup : Setup Bool) (scripts : Bool → Script) (stores : Stores)
    (turns : List Bool) (s : State Bool) : Prop where
  /-- A cycle that has had enough turns is over. -/
  ends : ∀ i, 2 * (Course.start (setup.request i)).remaining
      (setup.rules (setup.controller i)) + 3 ≤ turns.count i →
    ∃ report, s.phase i = .finished report
  /-- A cycle that is over reports what it reports alone. -/
  reports : ∀ i report, s.phase i = .finished report →
    report = (alone setup scripts i stores).report
  /-- When both are over, the stores are as if one had been served after the other, in
  either order. -/
  stores : (∀ i, ∃ report, s.phase i = .finished report) → ∀ i,
    s.stores.Alike (alone setup scripts (!i) (alone setup scripts i stores).world.1).world.1

theorem Parted.ended {w : Bool → Stores × List Exchange}
    (parted : Parted setup scripts stores s w) {i : Bool} {report : Report}
    (closed : s.phase i = .finished report) :
    report = (alone setup scripts i stores).report ∧
      w i = (alone setup scripts i stores).world := by
  have leads := (parted.solo i).leads
  rw [State.standing?_of_finished closed] at leads
  exact leads

/-- The second cycle finds its places as they were at the start. -/
theorem alone_after (sound : stores.registry.Sound) (rules : Rules) (script : Script)
    {r r' : Request} (apart : r.Apart r') {t : Stores} (sound' : t.registry.Sound)
    (within : Within r stores t) :
    let first := Controller.serve rules script.perform (stores, []) r'
    let second := Controller.serve rules script.perform (t, []) r'
    Beside r' second.world first.world ∧
      RolledAlike t second.world.1 stores first.world.1 ∧ Within r' t second.world.1 := by
  have beside : Beside r' (t, []) (stores, []) :=
    ⟨rfl, fun p owns => (within.elsewhere p (apart.symm.not_owns owns)).symm⟩
  obtain ⟨-, last, rolled⟩ := run_beside rules script (.start sound') (.start sound) beside
  exact ⟨last, rolled, run_within (w := (t, [])) (.start sound')⟩

theorem Parted.alike {w : Bool → Stores × List Exchange}
    (parted : Parted setup scripts stores s w) (sound : stores.registry.Sound) {i : Bool}
    (apart : (setup.request i).Apart (setup.request !i))
    (worlds : ∀ j, w j = (alone setup scripts j stores).world) :
    s.stores.Alike (alone setup scripts (!i) (alone setup scripts i stores).world.1).world.1 := by
  rw [← worlds i]
  have sound' := (parted.solo i).within.sound sound
  obtain ⟨beside, ⟨more, onward, alongside⟩, within⟩ := alone_after sound
    (setup.rules (setup.controller !i)) (scripts !i) apart sound' (parted.solo i).within
  have own : (Controller.serve (setup.rules (setup.controller !i)) (scripts !i).perform
      (stores, []) (setup.request !i)).world = w !i := (worlds !i).symm
  rw [own] at beside alongside
  refine Stores.alike_of_places (fun p => ?_) ?_ ?_
  · by_cases second : (setup.request !i).Owns p
    · exact ((parted.solo !i).beside.owned p second).trans (beside.owned p second).symm
    · by_cases first : (setup.request i).Owns p
      · exact ((parted.solo i).beside.owned p first).trans (within.elsewhere p second)
      · have neither : ∀ j, ¬ (setup.request j).Owns p := by
          intro j
          cases i <;> cases j <;> assumption
        exact (parted.elsewhere p neither).symm.trans
          (((parted.solo i).within.elsewhere p first).trans (within.elsewhere p second))
  · obtain ⟨placed, separate, shared⟩ := parted.rollouts
    have same : more = placed !i :=
      List.append_cancel_left (alongside.symm.trans (separate !i))
    show s.stores.fleet.rollouts.Perm _
    rw [alone, onward, separate i, same, List.append_assoc]
    refine shared.trans (List.Perm.append_left _ ?_)
    cases i with
    | false => exact .refl _
    | true => exact List.perm_append_comm
  · rw [parted.published]
    exact (within.published.trans (parted.solo i).within.published).symm

/-- Two requests with no place in common, at one controller or at two. In every order of
turns, and whatever their scripts have befall the calls, each cycle ends, it reports what
it reports with nobody else there, and together they leave the stores as one would after
the other. -/
theorem cycles_separate (sound : stores.registry.Sound)
    (keys : (setup.request false).key ≠ (setup.request true).key)
    (apart : (setup.request false).Apart (setup.request true)) (turns : List Bool) :
    Separate setup scripts stores turns (play setup scripts stores turns) := by
  obtain ⟨w, parted⟩ := play_parted scripts sound keys apart turns
  constructor
  case ends =>
    intro i enough
    have left := turnsLeft_play setup scripts stores turns i
    cases here : (play setup scripts stores turns).phase i with
    | finished report => exact ⟨report, rfl⟩
    | _ =>
      simp only [here, turnsLeft] at left
      omega
  case reports =>
    intro i report closed
    exact (parted.ended closed).1
  case stores =>
    intro closed i
    refine parted.alike sound ?_ fun j => ?_
    · cases i with
      | false => exact apart
      | true => exact apart.symm
    · obtain ⟨report, ended⟩ := closed j
      exact (parted.ended ended).2

/-- Two services of one cluster, served by one controller. -/
def pair : Setup Bool where
  rules _ := {}
  controller _ := 0
  request second :=
    if second then
      { cluster := "main", service := "web", container := "web", family := "web"
        alarm := "web-memory" }
    else
      { cluster := "main", service := "api", container := "api", family := "api"
        alarm := "api-memory" }

def pairStores : Stores where
  registry := (({} : Registry).append
      { family := "api", number := 0, cpu := 256, memory := 512 }).append
    { family := "web", number := 0, cpu := 256, memory := 1024 }
  fleet := (({} : Fleet).insert
      { cluster := "main", service := "api", container := "api", active := ⟨"api", 1⟩ }).insert
    { cluster := "main", service := "web", container := "web", active := ⟨"web", 1⟩ }
  monitor := ({} : Monitor).insert
    { name := "api-memory", metric := .memoryUtilized, metricNamespace := "api", dimensions := []
      comparison := .greater, threshold := ({} : ThresholdPolicy).threshold 512 }

/-- The first cycle does not hear of its first rebind; the second one is refused its first
look at the allocations, and has no alarm to set. -/
def pairScripts : Bool → Script
  | false, .rebind, 0 => .lost (.transient "no answer")
  | true, .describe, 0 => .refused (.transient "busy")
  | _, _, _ => .none

def pairTurns : List Bool := (List.replicate 18 [false, true]).flatten

theorem pair_separate :
    (((play pair pairScripts pairStores pairTurns).phase false).outcome? =
        some (.scaled ⟨"api", 1⟩ ⟨"api", 2⟩ 768
          (.patched "api-memory" (({} : ThresholdPolicy).threshold 768))) ∧
      ((play pair pairScripts pairStores pairTurns).phase true).outcome? =
        some (.scaled ⟨"web", 1⟩ ⟨"web", 2⟩ 1280
          (.stale "web-memory" (({} : ThresholdPolicy).threshold 1280)
            (.notFound "alarm web-memory")))) ∧
      Separate pair pairScripts pairStores pairTurns
        (play pair pairScripts pairStores pairTurns) := by
  refine ⟨by decide +kernel, cycles_separate ((Registry.Sound.empty.append _).append _) ?_ ?_ _⟩
  · decide
  · exact ⟨by decide, by decide, by decide⟩

end Headroom.Separation
