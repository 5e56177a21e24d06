import Headroom.Gateway.Client
import Headroom.Proofs.CallOrder
import Headroom.Proofs.Planning

/-!
What a cycle makes of a conflict, whichever call is answered with one. Only a rebind may meet
one and not fail the cycle by it: the cycle then looks at the binding, and goes by what it sees.
A conflict in answer to any call before that is the end of the cycle, in failure
(`conflicts_told`); a gateway may give such an answer to every call (`taken_revision_fails`).
-/
namespace Headroom.Cycle

namespace Exchange

/-- The answer was that an expected state was no longer the current one. -/
def Conflicts (x : Exchange) (detail : String) : Prop := x.reply = .error (.conflict detail)

/-- A rebind found another state than it expected. -/
def Contested (x : Exchange) : Prop :=
  x.call.operation = .rebind ∧ ∃ detail, x.Conflicts detail

theorem not_conflicts_ok (call : Call) (answer : call.Answer) (detail : String) :
    ¬ Conflicts ⟨call, .ok answer⟩ detail := by
  rintro ⟨⟩

theorem not_contested_ok (call : Call) (answer : call.Answer) : ¬ Contested ⟨call, .ok answer⟩ := by
  rintro ⟨-, detail, conflicts⟩
  exact not_conflicts_ok call answer detail conflicts

theorem not_conflicts_transient (call : Call) (cause detail : String) :
    ¬ Conflicts ⟨call, .error (.transient cause)⟩ detail := by
  rintro ⟨⟩

theorem not_contested_transient (call : Call) (cause : String) :
    ¬ Contested ⟨call, .error (.transient cause)⟩ := by
  rintro ⟨-, detail, conflicts⟩
  exact not_conflicts_transient call cause detail conflicts

end Exchange

/-- How a cycle ends that has registered a revision and met a conflict in rebinding to it. -/
inductive AfterContest (transcript : List Exchange) (new : Revision) : Outcome → Prop where
  /-- The service turned out to be bound elsewhere. -/
  | beaten {earlier : List Exchange} {last : Exchange} {b : Binding} (text : String)
      (ends : transcript = earlier ++ [last]) (shown : last.binding? = some b)
      (moved : b.active ≠ new) : AfterContest transcript new (.superseded text (some new))
  /-- The service turned out to be bound as asked, by an attempt whose answer was lost. -/
  | applied {x : Exchange} {b : Binding} (expected : Revision) (memory : UInt32)
      (alarm : AlarmUpdate) (made : x ∈ transcript) (shown : x.binding? = some b)
      (bound : b.active = new) : AfterContest transcript new (.scaled expected new memory alarm)
  /-- The look at the binding failed. -/
  | uninspected {earlier : List Exchange} {last : Exchange} {error : Error}
      (ends : transcript = earlier ++ [last]) (looks : last.call.operation = .describeBinding)
      (fails : last.reply = .error error) :
      AfterContest transcript new (.failed .rebinding error (some new))

/-- What the conflicts among a cycle's calls tell about its end. -/
structure ConflictsTell (transcript : List Exchange) (outcome : Outcome) : Prop where
  /-- A cycle fails with a conflict just when its last call was answered so, which was then a
  look at the binding, or to describe or register an allocation. -/
  failed_iff : ∀ detail, (∃ state orphan, outcome = .failed state (.conflict detail) orphan) ↔
    ∃ earlier last, transcript = earlier ++ [last] ∧ last.Conflicts detail ∧
      last.call.operation ∈ [.describeBinding, .describe, .register]
  /-- Of the calls that are answered so, a rebind is followed by others, and no other is. -/
  followed_iff : ∀ earlier x later detail, transcript = earlier ++ x :: later →
    x.Conflicts detail → (later ≠ [] ↔ x.call.operation = .rebind)
  contested : ∀ x ∈ transcript, x.Contested →
    ∃ new, registered transcript = [new] ∧ AfterContest transcript new outcome
  /-- A cycle is superseded just when its last call shows its service bound otherwise than it
  goes by: to the revision registered, or without that to the one shown first. -/
  superseded_iff : ∀ orphan, (∃ text, outcome = .superseded text orphan) ↔
    ∃ earlier last, transcript = earlier ++ [last] ∧ registered transcript = orphan.toList ∧
      ∃ b, last.binding? = some b ∧ orphan.or (expected? earlier) ≠ some b.active

/-- What a cycle that is at a stage has met of conflicts. -/
def Stage.Disputes (transcript : List Exchange) : Stage → Prop
  | .inspectBinding .. => True
  | .adjustAlarm _ new _ _ => (∃ x ∈ transcript, x.Contested) →
    ∃ x ∈ transcript, ∃ b, x.binding? = some b ∧ b.active = new
  | _ => ∀ x ∈ transcript, ¬ x.Contested

/-- Nothing but rebinds has been answered with a conflict. -/
def RebindsOnly (transcript : List Exchange) : Prop :=
  ∀ x ∈ transcript, ∀ detail, x.Conflicts detail → x.call.operation = .rebind

section

variable {rules : Rules} {r : Request} {transcript : List Exchange}

theorem Stage.Disputes.append {stage : Stage} (disputes : stage.Disputes transcript)
    {x : Exchange} (quiet : ¬ x.Contested) : stage.Disputes (transcript ++ [x]) := by
  have none (before : ∀ y ∈ transcript, ¬ y.Contested) :
      ∀ y ∈ transcript ++ [x], ¬ y.Contested := by
    intro y member
    obtain old | new := List.mem_append.mp member
    · exact before y old
    · rwa [List.mem_singleton.mp new]
  cases stage with
  | inspectBinding expected new memory conflict => trivial
  | adjustAlarm expected new memory threshold =>
    rintro ⟨y, member, contested⟩
    obtain old | same := List.mem_append.mp member
    · obtain ⟨z, shown, b, binding, bound⟩ := disputes ⟨y, old, contested⟩
      exact ⟨z, List.mem_append_left _ shown, b, binding, bound⟩
    · rw [List.mem_singleton.mp same] at contested
      exact absurd contested quiet
  | _ => exact none disputes

theorem Advance.disputes {stage next : Stage} {reply : (stage.call r).Reply}
    (advance : Advance rules r stage reply (.inl next)) (disputes : stage.Disputes transcript) :
    next.Disputes (transcript ++ [⟨stage.call r, reply⟩]) := by
  cases advance with
  | contested expected new memory detail => trivial
  | rebound expected new memory =>
    have quiet :=
      disputes.append (Exchange.not_contested_ok (.rebind r.cluster r.service expected new) ())
    rintro ⟨x, member, contested⟩
    exact absurd contested (quiet x member)
  | @applied b new expected memory conflict bound =>
    exact fun _ => ⟨_, List.mem_append_right _ (List.mem_singleton_self _), b, rfl, bound⟩
  | bindingRead | planned | confirmed | registered =>
    exact disputes.append (Exchange.not_contested_ok _ _)

theorem RebindsOnly.append (only : RebindsOnly transcript) {x : Exchange}
    (rebinds : ∀ detail, x.Conflicts detail → x.call.operation = .rebind) :
    RebindsOnly (transcript ++ [x]) := by
  intro y member
  obtain old | new := List.mem_append.mp member
  · exact only y old
  · rwa [List.mem_singleton.mp new]

/-- A cycle that goes on after a conflict has met it in a rebind. -/
theorem Advance.rebinds {stage next : Stage} {reply : (stage.call r).Reply}
    (advance : Advance rules r stage reply (.inl next)) {detail : String}
    (conflicts : Exchange.Conflicts ⟨stage.call r, reply⟩ detail) :
    (stage.call r).operation = .rebind := by
  cases advance with
  | contested => rfl
  | _ => exact absurd conflicts (Exchange.not_conflicts_ok _ _ _)

/-- A cycle does not end by a contested rebind. -/
theorem Advance.not_contested {stage : Stage} {reply : (stage.call r).Reply} {outcome : Outcome}
    (advance : Advance rules r stage reply (.inr outcome)) :
    ¬ Exchange.Contested ⟨stage.call r, reply⟩ := by
  have others : ¬ Group.Contested ⟨stage.call r, [], reply⟩ := advance.uncontested
  exact others

/-- A cycle fails with a conflict just when the call that ends it was answered so and is neither
a rebind nor the alarm's. -/
theorem Advance.failed_iff {stage : Stage} {reply : (stage.call r).Reply} {outcome : Outcome}
    (advance : Advance rules r stage reply (.inr outcome)) (detail : String) :
    (∃ state orphan, outcome = .failed state (.conflict detail) orphan) ↔
      Exchange.Conflicts ⟨stage.call r, reply⟩ detail ∧
        (stage.call r).operation ∈ [.describeBinding, .describe, .register] := by
  cases advance with
  | unplanned expected plan =>
    obtain ⟨cause, rfl⟩ := Sizing.Policy.plan_refused plan
    simp [Exchange.Conflicts]
  | unbound expected new memory uncontested =>
    have other := uncontested detail
    simp [Exchange.Conflicts, Call.operation, other]
  | _ => simp [Exchange.Conflicts, Call.operation]

/-- What is said of the end of a list that is extended by one. -/
theorem exists_concat_iff {α : Type} {xs : List α} {x : α} {P : List α → α → Prop} :
    (∃ earlier last, xs ++ [x] = earlier ++ [last] ∧ P earlier last) ↔ P xs x := by
  constructor
  · rintro ⟨earlier, last, same, holds⟩
    obtain ⟨rfl, tail⟩ := List.append_inj' same rfl
    rwa [List.singleton_inj.mp tail]
  · exact fun holds => ⟨xs, x, rfl, holds⟩

/-- A cycle ends with a look that shows its service bound just where the binding is not the
one it goes by. -/
theorem Advance.superseded_iff {stage : Stage} {reply : (stage.call r).Reply} {outcome : Outcome}
    (advance : Advance rules r stage reply (.inr outcome)) (recalls : stage.Recalls transcript)
    (orphan : Option Revision) :
    (∃ text, outcome = .superseded text orphan) ↔
      Cycle.registered (transcript ++ [⟨stage.call r, reply⟩]) = orphan.toList ∧
        ∃ b, Exchange.binding? ⟨stage.call r, reply⟩ = some b ∧
          orphan.or (expected? transcript) ≠ some b.active := by
  have named := advance.recalls_outcome recalls
  cases advance with
  | @overtaken b expected candidate detail moved =>
    have named : Cycle.registered (transcript ++ [_]) = [] := named
    rw [named]
    cases orphan with
    | none => simp [Exchange.binding?, recalls.1, moved.symm]
    | some new => simp
  | @beaten b new expected memory conflict detail moved =>
    have named : Cycle.registered (transcript ++ [_]) = [new] := named
    rw [named]
    cases orphan with
    | none => simp
    | some other =>
      constructor
      · rintro ⟨text, same⟩
        cases same
        exact ⟨rfl, b, rfl, fun elsewhere => moved (Option.some.inj elsewhere).symm⟩
      · rintro ⟨same, -⟩
        obtain rfl := List.singleton_inj.mp same
        exact ⟨detail, rfl⟩
  | _ => simp [Exchange.binding?]

/-- A cycle that ends after a rebind met a conflict has seen what its service is bound to, or
could not. -/
theorem Advance.afterContest {stage : Stage} {reply : (stage.call r).Reply} {outcome : Outcome}
    (advance : Advance rules r stage reply (.inr outcome)) (disputes : stage.Disputes transcript)
    (recalls : stage.Recalls transcript)
    (contested : ∃ x ∈ transcript ++ [⟨stage.call r, reply⟩], x.Contested) :
    ∃ new, Cycle.registered (transcript ++ [⟨stage.call r, reply⟩]) = [new] ∧
      AfterContest (transcript ++ [⟨stage.call r, reply⟩]) new outcome := by
  have named := advance.recalls_outcome recalls
  obtain ⟨x, member, contested⟩ := contested
  have before : x ∈ transcript := by
    obtain old | new := List.mem_append.mp member
    · exact old
    · rw [List.mem_singleton.mp new] at contested
      exact absurd contested advance.not_contested
  cases advance with
  | @beaten b new expected memory conflict detail moved =>
    exact ⟨new, named, .beaten detail rfl rfl moved⟩
  | uninspected expected new memory conflict error =>
    exact ⟨new, named, .uninspected rfl rfl rfl⟩
  | adjusted expected new memory threshold | leftBehind expected new memory threshold =>
    obtain ⟨y, made, b, shown, bound⟩ := disputes ⟨x, before, contested⟩
    exact ⟨new, named.2, .applied expected memory _ (List.mem_append_left _ made) shown bound⟩
  | _ => exact absurd contested (disputes x before)

/-- What holds of a cycle's conflicts while it goes on. -/
structure Stage.Met (transcript : List Exchange) (stage : Stage) : Prop where
  rebinds : RebindsOnly transcript
  disputes : stage.Disputes transcript

theorem Advance.conflictsTell {stage : Stage} {reply : (stage.call r).Reply} {outcome : Outcome}
    (advance : Advance rules r stage reply (.inr outcome)) (met : stage.Met transcript)
    (recalls : stage.Recalls transcript) :
    ConflictsTell (transcript ++ [⟨stage.call r, reply⟩]) outcome where
  failed_iff detail := by
    rw [exists_concat_iff]
    exact advance.failed_iff detail
  followed_iff earlier x later detail whole conflicts := by
    obtain rfl | ⟨before, last, rfl⟩ := later.eq_nil_or_concat
    · obtain ⟨-, tail⟩ := List.append_inj' whole rfl
      rw [← List.singleton_inj.mp tail] at conflicts ⊢
      exact iff_of_false (fun some => some rfl) fun rebinds =>
        advance.not_contested ⟨rebinds, detail, conflicts⟩
    · rw [List.concat_eq_append, ← List.cons_append, ← List.append_assoc] at whole
      obtain ⟨rfl, -⟩ := List.append_inj' whole rfl
      exact iff_of_true (by simp) (met.rebinds x (by simp) detail conflicts)
  contested x member contested := advance.afterContest met.disputes recalls ⟨x, member, contested⟩
  superseded_iff orphan := by
    rw [exists_concat_iff]
    exact advance.superseded_iff recalls orphan

/-- Every reply that a cycle goes on after keeps what holds of its conflicts, and where it
ends they tell about its end. -/
theorem Follows.met {standing : Standing} (follows : Follows rules r transcript standing) :
    standing.Meets (Stage.Met transcript) (ConflictsTell transcript) := by
  induction follows with
  | start =>
    show Stage.Met [] _
    exact ⟨fun x member => (nomatch member), fun x member => (nomatch member)⟩
  | @answer transcript c reply before ih =>
    have met : c.stage.Met transcript := ih
    refine c.answer_cases rules reply ?_ ?_ ?_
    · rintro detail rfl -
      exact ⟨met.rebinds.append fun other conflicts =>
          absurd conflicts (Exchange.not_conflicts_transient _ _ _),
        met.disputes.append (Exchange.not_contested_transient _ _)⟩
    · intro stage path advance _
      exact ⟨met.rebinds.append fun detail conflicts => advance.rebinds conflicts,
        advance.disputes met.disputes⟩
    · intro outcome path advance _
      exact advance.conflictsTell met before.recalls

end

/-- Whatever a cycle's calls are answered with, the conflicts among the answers tell how it
ends. -/
theorem conflicts_told {σ : Type} (rules : Rules)
    (perform : σ → (call : Call) → call.Reply × σ) (world : σ) (r : Request) :
    let done := Controller.serve rules (recorded perform) (world, []) r
    { done with world := done.world.1 } = Controller.serve rules perform world r ∧
      ConflictsTell done.world.2 done.report.outcome :=
  ⟨serve_recorded rules perform world r, (Course.run_follows rules perform world r).met⟩

/-- A request whose service runs the first revision of its family. -/
def contender : Request :=
  { cluster := "main", service := "api", container := "app", family := "api", alarm := "memory" }

/-- The replies of a gateway where somebody else has just registered for the family. -/
def takenRevision (_ : Unit) : (call : Call) → call.Reply × Unit
  | .describeBinding cluster service =>
    (.ok { cluster, service, container := "app", active := ⟨"api", 1⟩ }, ())
  | .describe family => (.ok { family, number := 1, cpu := 256, memory := 512 }, ())
  | call => (Gateway.Client.answer (.received 409 "revision taken") call, ())

/-- A gateway's refusal of the revision to be registered fails the cycle, and with the
conflict. -/
theorem taken_revision_fails :
    (Controller.serve {} takenRevision () contender).report.outcome =
      .failed .registering (.conflict "409 Conflict: revision taken") none := by
  have ends : ((Course.start contender).runWithin? {} takenRevision 4 ()).map (·.2.outcome) =
      some (.failed .registering (.conflict "409 Conflict: revision taken") none) := by
    decide +kernel
  obtain ⟨⟨last, report⟩, within, outcome⟩ := Option.map_eq_some_iff.mp ends
  rw [Controller.serve, ← outcome, ← (Course.run_of_runWithin? within).2]

end Headroom.Cycle
