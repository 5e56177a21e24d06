import Headroom.Proofs.Capacity
import Headroom.Proofs.Origins

/-!
What becomes of the revisions that a cycle's calls add to a family. They are the one
that its report names, if any, and besides those of which the cycle never heard, because
the call took effect and the answer was lost; nothing goes to another family. So a
report accounts for everything exactly when no such answer was lost
(`registrations_accounted`), and a registration that is tried again after a lost answer
leaves a revision that nobody names (`unheard_registration`).
-/
namespace Headroom

open Headroom.Cycle

/-- The revision that a report names as registered by its cycle. -/
def Cycle.Outcome.named? : Outcome → Option Revision
  | .scaled _ new _ _ => some new
  | .superseded _ orphan | .failed _ _ orphan => orphan
  | .saturated .. | .ignored _ => none

theorem Cycle.Outcome.Recalls.named? {outcome : Outcome} {transcript : List Exchange}
    (recalls : outcome.Recalls transcript) : registered transcript = outcome.named?.toList := by
  cases outcome with
  | scaled => exact recalls.2
  | ignored => exact recalls.elim
  | _ => exact recalls

namespace Interleaving

variable {ι : Type}

/-- The revisions that a call added to a family. -/
def Entry.appended (e : Entry ι) (family : String) : List Revision :=
  ((e.after.registry.history family).drop (e.before.registry.history family).length).map
    Allocation.revision

/-- The revision that a call's reply names as registered. -/
def Entry.named? (e : Entry ι) : Option Revision := e.exchange.registered?

theorem Entry.appended_of_same {e : Entry ι} {family : String}
    (same : e.after.registry.history family = e.before.registry.history family) :
    e.appended family = [] := by
  simp [appended, same]

theorem Entry.appended_of_append {e : Entry ι} {candidate : Allocation}
    (grown : e.after.registry = e.before.registry.append candidate) :
    e.appended candidate.family =
      [⟨candidate.family, e.before.registry.nextNumber candidate.family⟩] := by
  simp [appended, grown, Registry.append_history_self, Allocation.revision]

/-- A revision that a reply names is what the call added to its family. -/
theorem Entry.appended_of_named {e : Entry ι} {fault : Fault}
    (attempted : e.before.Attempted e.call fault e.reply e.after) {new : Revision}
    (named : e.named? = some new) : e.appended new.family = [new] := by
  obtain ⟨cycle, call, reply, before, after⟩ := e
  obtain ⟨candidate, exchange⟩ := Exchange.of_registered? named
  cases exchange
  dsimp only at attempted
  cases attempted with
  | done does =>
    cases does
    exact appended_of_append rfl

namespace State

variable [DecidableEq ι]

/-- The calls of a cycle, newest first. -/
def callsOf (s : State ι) (i : ι) : List (Entry ι) := s.log.filter (·.cycle = i)

/-- The revisions that a cycle's calls added to a family, newest first. -/
def appended (s : State ι) (i : ι) (family : String) : List Revision :=
  (s.callsOf i).flatMap (·.appended family)

/-- Those of them that were added by a call whose reply names no revision. -/
def unheard (s : State ι) (i : ι) (family : String) : List Revision :=
  ((s.callsOf i).filter (·.named?.isNone)).flatMap (·.appended family)

theorem filterMap_named (s : State ι) (i : ι) :
    (s.callsOf i).filterMap Entry.named? = (registered (s.transcript i)).reverse := by
  simp only [callsOf, registered, transcript, List.filterMap_reverse, List.reverse_reverse,
    List.filterMap_map]
  rfl

theorem callsOf_called_self (s : State ι) (i : ι) (course : Course) (reply : course.call.Reply)
    (after : Stores) : (s.called i course reply after).callsOf i =
      ⟨i, course.call, reply, s.stores, after⟩ :: s.callsOf i := by
  simp [callsOf, called]

theorem callsOf_called_other (s : State ι) {i j : ι} (other : j ≠ i) (course : Course)
    (reply : course.call.Reply) (after : Stores) :
    (s.called i course reply after).callsOf j = s.callsOf j := by
  simp [callsOf, called, other.symm]

end State

/-- Values that come with a name are those named; the rest is unnamed. -/
theorem flatMap_perm_named {α β : Type} (added : α → List β) (named? : α → Option β)
    (calls : List α) (tells : ∀ e ∈ calls, ∀ v, named? e = some v → added e = [v]) :
    (calls.flatMap added).Perm
      ((calls.filter fun e => (named? e).isNone).flatMap added ++ calls.filterMap named?) := by
  induction calls with
  | nil => exact .refl _
  | cons e rest ih =>
    have ih := ih fun e member => tells e (List.mem_cons_of_mem _ member)
    cases name : named? e with
    | none =>
      simp only [List.flatMap_cons, List.filter_cons, name, Option.isNone_none, if_true,
        List.filterMap_cons, List.append_assoc]
      exact ih.append_left _
    | some v =>
      rw [List.flatMap_cons, tells e List.mem_cons_self v name]
      simp only [List.filter_cons, name, Option.isNone_some, Bool.false_eq_true, if_false,
        List.filterMap_cons]
      exact (ih.cons v).trans List.perm_middle.symm

variable [DecidableEq ι]

section

variable {setup : Setup ι} {stores : Stores} {s : State ι}

/-- Calls add to their own request's family only. -/
theorem Reachable.appended_family (reachable : Reachable setup stores s)
    (sound : stores.registry.Sound) : ∀ e ∈ s.log, ∀ family, e.appended family ≠ [] →
      family = (setup.request e.cycle).family := by
  refine reachable.invariant (P := fun s => ∀ e ∈ s.log, ∀ family, e.appended family ≠ [] →
    family = (setup.request e.cycle).family) (fun e member => by cases member) ?_
  intro s s' reached own step e member family adds
  obtain ⟨-, log⟩ | ⟨i, course, reply, after, fault, calling, attempted, rfl⟩ :=
    step.call_or_still
  · rw [log] at member
    exact own e member family adds
  · obtain rfl | old := List.mem_cons.mp member
    · obtain same | ⟨candidate, registers, rfl, -⟩ := attempted.registers family
      · exact absurd (Entry.appended_of_same same) adds
      · exact (reached.planned calling registers).family reached sound
    · exact own e old family adds

/-- The revisions that a cycle's calls added are all different, and registered. -/
theorem Reachable.appended_nodup (reachable : Reachable setup stores s)
    (sound : stores.registry.Sound) (room : s.stores.registry.HasRoom) (i : ι)
    (family : String) : (s.appended i family).Nodup ∧
      ∀ v ∈ s.appended i family, s.stores.registry.Holds v := by
  revert room
  refine reachable.invariant (P := fun s => s.stores.registry.HasRoom →
    (s.appended i family).Nodup ∧ ∀ v ∈ s.appended i family, s.stores.registry.Holds v)
    (fun _ => ⟨List.nodup_nil, fun v member => by cases member⟩) ?_
  intro s s' reached distinct step room
  obtain ⟨stores, log⟩ | ⟨j, course, reply, after, fault, calling, attempted, rfl⟩ :=
    step.call_or_still
  · have same : s'.appended i family = s.appended i family := by
      simp only [State.appended, State.callsOf, log]
    rw [same, stores]
    exact distinct (by rwa [← stores])
  · have before : s.stores.registry.HasRoom := room.anti attempted.grows
    obtain ⟨nodup, held⟩ := distinct before
    have onward : ∀ v ∈ s.appended i family, after.registry.Holds v :=
      fun v member => (held v member).mono attempted.grows
    by_cases same : i = j
    · subst same
      rw [State.appended, State.callsOf_called_self, List.flatMap_cons]
      obtain same | ⟨candidate, -, rfl, grown⟩ := attempted.registers family
      · rw [Entry.appended_of_same same]
        exact ⟨nodup, onward⟩
      · rw [Entry.appended_of_append grown]
        have fresh := (reached.sound sound).fresh before candidate.family
        refine ⟨List.nodup_cons.mpr ⟨fun member => fresh (held _ member), nodup⟩, ?_⟩
        intro v member
        obtain rfl | old := List.mem_cons.mp member
        · change after.registry.Holds _
          rw [grown]
          exact s.stores.registry.holds_append candidate
        · exact onward v old
    · have kept : (s.called j course reply after).appended i family = s.appended i family := by
        rw [State.appended, State.callsOf_called_other s same]
        rfl
      rw [kept]
      exact ⟨nodup, onward⟩

/-- What a reply names is what the call added to its request's family. -/
theorem Reachable.appended_of_named (reachable : Reachable setup stores s)
    (sound : stores.registry.Sound) {i : ι} {e : Entry ι} (called : e ∈ s.callsOf i)
    {new : Revision} (named : e.named? = some new) :
    e.appended (setup.request i).family = [new] := by
  obtain ⟨logged, own⟩ := List.mem_filter.mp called
  obtain rfl := of_decide_eq_true own
  obtain ⟨fault, attempted⟩ := reachable.logged e logged
  have added := Entry.appended_of_named attempted named
  have family := reachable.appended_family sound e logged new.family (by simp [added])
  rwa [← family]

/-- A revision that a cycle did not hear of was added by a registration that it saw
fail. -/
theorem Reachable.unheard_lost (reachable : Reachable setup stores s) {i : ι} {family : String}
    {v : Revision} (silent : v ∈ s.unheard i family) :
    ∃ e ∈ s.callsOf i, ∃ candidate error,
      e.exchange = ⟨.register candidate, .error error⟩ ∧ e.appended family = [v] := by
  obtain ⟨e, found, adds⟩ := List.mem_flatMap.mp silent
  obtain ⟨called, unnamed⟩ := List.mem_filter.mp found
  obtain ⟨fault, attempted⟩ := reachable.logged e (List.mem_filter.mp called).1
  refine ⟨e, called, ?_⟩
  obtain same | ⟨candidate, registers, rfl, grown⟩ := attempted.registers family
  · rw [Entry.appended_of_same same] at adds
    cases adds
  · rw [Entry.appended_of_append grown] at adds ⊢
    rw [List.mem_singleton.mp adds]
    obtain ⟨cycle, call, reply, before, after⟩ := e
    dsimp only at registers
    subst registers
    cases reply with
    | ok new => cases unnamed
    | error error => exact ⟨candidate, error, rfl, rfl⟩

end

/-- Where the revisions have gone that a cycle's calls added, when it reports. -/
structure Accounts (setup : Setup ι) (s : State ι) (i : ι) (outcome : Outcome) : Prop where
  /-- No call adds to another family than its request's. -/
  elsewhere : ∀ family, family ≠ (setup.request i).family → s.appended i family = []
  /-- In that family are those that the cycle did not hear of and the one that it names. -/
  account : (s.appended i (setup.request i).family).Perm
    (s.unheard i (setup.request i).family ++ outcome.named?.toList)
  /-- One that it did not hear of was added by a registration that it saw fail. -/
  lost : ∀ v ∈ s.unheard i (setup.request i).family, ∃ e ∈ s.callsOf i, ∃ candidate error,
    e.exchange = ⟨.register candidate, .error error⟩ ∧ e.appended (setup.request i).family = [v]
  /-- None is added twice, as long as the numbers are not used up. -/
  distinct : s.stores.registry.HasRoom → (s.appended i (setup.request i).family).Nodup
  /-- The cycle has added what it names and nothing else just when there is none that it
  did not hear of. -/
  complete : s.appended i (setup.request i).family = outcome.named?.toList ↔
    s.unheard i (setup.request i).family = []

/-- In every order of steps, and whatever befalls the calls, a cycle that has ended has
added to its request's family the revision that its report names, if any, and one for
every registration that took effect while the cycle saw it fail. -/
theorem registrations_accounted {setup : Setup ι} {stores : Stores} {s : State ι}
    (reachable : Reachable setup stores s) (sound : stores.registry.Sound) {i : ι}
    {report : Report} (finished : s.phase i = .finished report) :
    Accounts setup s i report.outcome := by
  have here : s.standing? setup i = some (.ended report) := by
    simp only [State.standing?, finished]
  have recalls : report.outcome.Recalls (s.transcript i) := reachable.recalls here
  have account : (s.appended i (setup.request i).family).Perm
      (s.unheard i (setup.request i).family ++ report.outcome.named?.toList) := by
    have told := flatMap_perm_named (·.appended (setup.request i).family) Entry.named?
      (s.callsOf i) fun e called new named => reachable.appended_of_named sound called named
    rw [s.filterMap_named, recalls.named?] at told
    exact told.trans ((List.reverse_perm _).append_left _)
  refine ⟨?_, account, fun v silent => reachable.unheard_lost silent,
    fun room => (reachable.appended_nodup sound room i _).1, ?_, ?_⟩
  · intro family other
    refine List.flatMap_eq_nil_iff.mpr fun e called => ?_
    obtain ⟨logged, own⟩ := List.mem_filter.mp called
    by_contra adds
    have family' := reachable.appended_family sound e logged family adds
    rw [of_decide_eq_true own] at family'
    exact other family'
  · intro same
    have lengths := account.length_eq
    rw [same, List.length_append] at lengths
    exact List.length_eq_zero_iff.mp (by omega)
  · intro heard
    rw [heard, List.nil_append] at account
    cases named : report.outcome.named? with
    | none =>
      rw [named] at account
      exact account.eq_nil
    | some new =>
      rw [named] at account
      exact account.eq_singleton

/-- Reports name all that their cycles have added. -/
def State.Accounted (s : State ι) : Prop :=
  ∀ i report, s.phase i = .finished report →
    ∀ family, ∀ v ∈ s.appended i family, report.outcome.named? = some v

/-- The first cycle of the series adds two revisions and names the second one. -/
theorem series_adds_two {s : State Bool}
    (ran : ({ stores := seriesStores } : State Bool).run? series seriesMoves = some s) :
    (∃ alarm path, s.phase false = .finished ⟨.scaled ⟨"api", 1⟩ ⟨"api", 3⟩ 768 alarm, path⟩) ∧
      s.appended false "api" = [⟨"api", 3⟩, ⟨"api", 2⟩] := by
  have facts : (({ stores := seriesStores } : State Bool).run? series seriesMoves).map (fun s =>
      ((s.phase false).outcome?, s.appended false "api")) =
      some (some (.scaled ⟨"api", 1⟩ ⟨"api", 3⟩ 768
        (.patched "high" (({} : ThresholdPolicy).threshold 768))),
        [⟨"api", 3⟩, ⟨"api", 2⟩]) := by decide +kernel
  rw [ran] at facts
  simp only [Option.map_some, Option.some.injEq, Prod.mk.injEq] at facts
  exact ⟨⟨_, Phase.of_outcome? facts.1⟩, facts.2⟩

theorem series_accounted : ∃ s alarm path,
    ({ stores := seriesStores } : State Bool).run? series seriesMoves = some s ∧
    s.phase false = .finished ⟨.scaled ⟨"api", 1⟩ ⟨"api", 3⟩ 768 alarm, path⟩ ∧
    Accounts series s false (.scaled ⟨"api", 1⟩ ⟨"api", 3⟩ 768 alarm) := by
  obtain ⟨s, ran⟩ := Option.isSome_iff_exists.mp
    (show (({ stores := seriesStores } : State Bool).run? series seriesMoves).isSome by
      decide +kernel)
  obtain ⟨⟨alarm, path, ended⟩, -⟩ := series_adds_two ran
  exact ⟨s, alarm, path, ran, ended,
    registrations_accounted (Reachable.start.run ran) (Registry.Sound.empty.append _) ended⟩

/-- A registration whose answer is lost is made again, and nobody names the first one. -/
theorem unheard_registration : ∃ s,
    ({ stores := seriesStores } : State Bool).run? series seriesMoves = some s ∧
    Reachable series seriesStores s ∧ ¬ s.Accounted := by
  obtain ⟨s, ran⟩ := Option.isSome_iff_exists.mp
    (show (({ stores := seriesStores } : State Bool).run? series seriesMoves).isSome by
      decide +kernel)
  obtain ⟨⟨alarm, path, ended⟩, added⟩ := series_adds_two ran
  refine ⟨s, ran, Reachable.start.run ran, fun accounted => ?_⟩
  have named := accounted false _ ended "api" ⟨"api", 2⟩ (by simp [added])
  simp [Outcome.named?] at named

end Interleaving
end Headroom
