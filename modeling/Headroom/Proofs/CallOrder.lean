import Headroom.Controller
import Headroom.Proofs.Transcript
import Mathlib.Data.List.Chain

/-!
The order in which a cycle makes its calls, whatever the collaborators answer. The
calls come in groups, one for each stage: the attempts that failed for the time being,
and a last one that was taken. `calls_in_order` says which groups a cycle makes, when it
leaves one for the next, and what its rebinds ask for.
-/
namespace Headroom.Cycle

/-- The attempts at a call, all but the last of which failed for the time being. -/
structure Group where
  call : Call
  failures : List String
  last : call.Reply

namespace Group

def operation (g : Group) : Operation := g.call.operation

def exchanges (g : Group) : List Exchange :=
  g.failures.map (fun detail => ⟨g.call, .error (.transient detail)⟩) ++ [⟨g.call, g.last⟩]

/-- The last call of a group. -/
def ending (g : Group) : Exchange := ⟨g.call, g.last⟩

def Succeeded (g : Group) : Prop := ∃ answer, g.last = .ok answer

/-- A rebind found the service bound to another revision than it expected. -/
def Contested (g : Group) : Prop :=
  g.operation = .rebind ∧ ∃ detail, g.last = .error (.conflict detail)

/-- A group is left for another call: after success, or to look at the binding that
stood in the way of a rebind. -/
def LeftFor (g : Group) (next : Operation) : Prop :=
  g.Succeeded ∧ ¬ (g.operation = .rebind ∧ next = .describeBinding) ∨
    g.Contested ∧ next = .describeBinding

end Group

/-- Groups of calls that lead a cycle to a stage or an outcome. -/
inductive Through (rules : Rules) (r : Request) : List Group → Stage ⊕ Outcome → Prop where
  | start : Through rules r [] (.inl .readBinding)
  | group {groups : List Group} {stage : Stage} {next : Stage ⊕ Outcome} (failures : List String)
      (last : (stage.call r).Reply) (before : Through rules r groups (.inl stage))
      (few : failures.length < rules.retry.attempts)
      (spent : ∀ detail, last = .error (.transient detail) →
        rules.retry.attempts ≤ failures.length + 1)
      (advance : Advance rules r stage last next) :
      Through rules r (groups ++ [⟨stage.call r, failures, last⟩]) next

/-- A transcript consists of groups; a cycle that is due to make a call may be within one. -/
def Grouped (rules : Rules) (r : Request) (transcript : List Exchange) : Standing → Prop
  | .due c => ∃ (groups : List Group) (failures : List String),
      transcript = groups.flatMap Group.exchanges ++
        failures.map (fun detail => ⟨c.call, .error (.transient detail)⟩) ∧
      failures.length + 1 = c.attempt ∧ c.attempt ≤ rules.retry.attempts ∧
      Through rules r groups (.inl c.stage)
  | .ended report => ∃ groups, transcript = groups.flatMap Group.exchanges ∧
      Through rules r groups (.inr report.outcome)

theorem Follows.grouped {rules : Rules} {r : Request} {transcript : List Exchange}
    {standing : Standing} (follows : Follows rules r transcript standing) :
    Grouped rules r transcript standing := by
  induction follows with
  | start => exact ⟨[], [], rfl, rfl, Course.attempts_pos rules.retry, .start⟩
  | @answer transcript c reply before ih =>
    obtain rfl := before.request_eq c rfl
    obtain ⟨groups, failures, whole, count, few, through⟩ := ih
    have closed : transcript ++ [⟨c.call, reply⟩] =
        (groups ++ [(⟨c.call, failures, reply⟩ : Group)]).flatMap Group.exchanges := by
      simp [whole, Group.exchanges]
    refine c.answer_cases rules reply ?_ ?_ ?_
    · rintro detail rfl left
      refine ⟨groups, failures ++ [detail], ?_, ?_, left, through⟩
      · simp [whole, Course.call]
      · simp [count]
    · intro stage path advance spent
      refine ⟨_, [], by rw [closed]; simp, rfl, Course.attempts_pos rules.retry,
        .group failures reply through (by omega) (fun detail failed => ?_) advance⟩
      exact count ▸ spent detail failed
    · intro outcome path advance spent
      refine ⟨_, closed, .group failures reply through (by omega) (fun detail failed => ?_) advance⟩
      exact count ▸ spent detail failed

/-- The operations of groups that lead to a stage, and how the last of them ended where
that decides on the way. -/
def Stage.Opened (r : Request) (groups : List Group) : Stage → Prop
  | .readBinding => groups.map Group.operation = []
  | .readAllocation _ => groups.map Group.operation = [.describeBinding]
  | .confirmBinding .. => groups.map Group.operation = [.describeBinding, .describe]
  | .register .. => groups.map Group.operation = [.describeBinding, .describe, .describeBinding]
  | .rebind .. =>
    groups.map Group.operation = [.describeBinding, .describe, .describeBinding, .register]
  | .inspectBinding .. =>
    groups.map Group.operation =
        [.describeBinding, .describe, .describeBinding, .register, .rebind] ∧
      ∃ earlier rebind, groups = earlier ++ [rebind] ∧ rebind.Contested
  | .adjustAlarm _ new _ _ =>
    (groups.map Group.operation =
        [.describeBinding, .describe, .describeBinding, .register, .rebind] ∧
      ∃ earlier rebind, groups = earlier ++ [rebind] ∧ rebind.Succeeded) ∨
    (groups.map Group.operation =
        [.describeBinding, .describe, .describeBinding, .register, .rebind, .describeBinding] ∧
      ∃ earlier rebind look b, groups = earlier ++ [rebind, look] ∧ rebind.Contested ∧
        look.ending = ⟨.describeBinding r.cluster r.service, .ok b⟩ ∧ b.active = new)

/-- The operation of a stage's call. -/
def Stage.operation : Stage → Operation
  | .readBinding | .confirmBinding .. | .inspectBinding .. => .describeBinding
  | .readAllocation .. => .describe
  | .register .. => .register
  | .rebind .. => .rebind
  | .adjustAlarm .. => .patchAlarm

@[simp] theorem Stage.call_operation (r : Request) (stage : Stage) :
    (stage.call r).operation = stage.operation := by
  cases stage <;> rfl

section

variable {rules : Rules} {r : Request} {groups : List Group}

theorem operations_concat {operations : List Operation}
    (opened : groups.map Group.operation = operations) (g : Group) :
    (groups ++ [g]).map Group.operation = operations ++ [g.operation] := by
  rw [List.map_append, opened]
  rfl

/-- A stage leads on to another with the groups that open it. -/
theorem Advance.opened {stage next : Stage} {last : (stage.call r).Reply} {failures : List String}
    (advance : Advance rules r stage last (.inl next)) (opened : stage.Opened r groups) :
    next.Opened r (groups ++ [⟨stage.call r, failures, last⟩]) := by
  cases advance with
  | contested expected new memory detail =>
    exact ⟨operations_concat opened _, groups, _, rfl, rfl, detail, rfl⟩
  | rebound expected new memory =>
    exact .inl ⟨operations_concat opened _, groups, _, rfl, (), rfl⟩
  | @applied b new expected memory conflict bound =>
    obtain ⟨operations, earlier, rebind, rfl, contested⟩ := opened
    exact .inr ⟨operations_concat operations _, earlier, rebind, _, b,
      List.append_assoc _ _ _, contested, rfl, bound⟩
  | _ => exact operations_concat opened _

theorem Through.opened {stage : Stage} (through : Through rules r groups (.inl stage)) :
    stage.Opened r groups := by
  generalize at_stage : (Sum.inl stage : Stage ⊕ Outcome) = next at through
  induction through generalizing stage with
  | start =>
    obtain rfl := Sum.inl.inj at_stage
    rfl
  | group failures last before few spent advance ih =>
    subst at_stage
    exact advance.opened (ih rfl)

/-- A stage is left for another only in one of two ways. -/
theorem Advance.leftFor {stage next : Stage} {last : (stage.call r).Reply} {failures : List String}
    (advance : Advance rules r stage last (.inl next)) :
    Group.LeftFor ⟨stage.call r, failures, last⟩ next.operation := by
  cases advance with
  | contested expected new memory detail => exact .inr ⟨⟨rfl, detail, rfl⟩, rfl⟩
  | _ => exact .inl ⟨⟨_, rfl⟩, by simp [Group.operation, Call.operation, Stage.operation]⟩

/-- A stage that ends a cycle was not contested. -/
theorem Advance.uncontested {stage : Stage} {outcome : Outcome} {last : (stage.call r).Reply}
    {failures : List String} (advance : Advance rules r stage last (.inr outcome)) :
    ¬ Group.Contested ⟨stage.call r, failures, last⟩ := by
  rintro ⟨rebinds, detail, conflict⟩
  dsimp only at conflict
  subst conflict
  cases advance with
  | unbound expected new memory uncontested => exact uncontested detail rfl
  | _ => cases rebinds

theorem Through.left {next : Stage ⊕ Outcome} (through : Through rules r groups next) :
    groups.IsChain (fun g later => g.LeftFor later.operation) ∧
      ∀ stage, next = .inl stage → ∀ g ∈ groups.getLast?, g.LeftFor stage.operation := by
  induction through with
  | start => exact ⟨.nil, fun _ _ g member => by cases member⟩
  | @group groups stage next failures last before few spent advance ih =>
    refine ⟨ih.1.append (.singleton _) ?_, ?_⟩
    · rintro g member later ⟨⟩
      simpa [Group.operation] using ih.2 stage rfl g member
    · rintro stage rfl g member
      simp only [List.getLast?_append, List.getLast?_singleton, Option.some_or,
        Option.mem_def, Option.some.injEq] at member
      subst member
      exact advance.leftFor

theorem Through.attempts {next : Stage ⊕ Outcome} (through : Through rules r groups next) :
    ∀ g ∈ groups, g.failures.length < rules.retry.attempts ∧
      ∀ detail, g.last = .error (.transient detail) →
        g.failures.length + 1 = rules.retry.attempts := by
  induction through with
  | start => exact fun g member => by cases member
  | group failures last before few spent advance ih =>
    intro g member
    obtain old | new := List.mem_append.mp member
    · exact ih g old
    · rw [List.mem_singleton.mp new]
      exact ⟨few, fun detail failed => Nat.le_antisymm few (spent detail failed)⟩

end

/-- The operations of a cycle that comes to its end undisputed. -/
def undisputed : List Operation :=
  [.describeBinding, .describe, .describeBinding, .register, .rebind, .patchAlarm]

/-- The operations of a cycle that has to look at what stood in the way of its rebind. -/
def disputed : List Operation :=
  [.describeBinding, .describe, .describeBinding, .register, .rebind, .describeBinding, .patchAlarm]

/-- The order of a cycle's calls. -/
structure InOrder (rules : Rules) (r : Request) (transcript : List Exchange)
    (groups : List Group) : Prop where
  whole : transcript = groups.flatMap Group.exchanges
  /-- No more attempts are made at a call than allowed, and all of them when the last
  one fails for the time being as well. -/
  attempts : ∀ g ∈ groups, g.failures.length < rules.retry.attempts ∧
    ∀ detail, g.last = .error (.transient detail) →
      g.failures.length + 1 = rules.retry.attempts
  order : groups.map Group.operation <+: undisputed ∨ groups.map Group.operation <+: disputed
  /-- A group is left after success, or for a look at the binding after a conflict. -/
  left : groups.IsChain fun g later => g.LeftFor later.operation
  /-- After a conflict there always is a look at the binding. -/
  inspected : ∀ g ∈ groups.getLast?, ¬ g.Contested
  /-- The alarm is set after a rebind that succeeded, or that turned out to have. -/
  alarm : ∀ earlier g, groups = earlier ++ [g] → g.operation = .patchAlarm →
    (∃ before rebind, earlier = before ++ [rebind] ∧ rebind.operation = .rebind ∧
      rebind.Succeeded) ∨
    ∃ before rebind look b, earlier = before ++ [rebind, look] ∧ rebind.Contested ∧
      look.ending = ⟨.describeBinding r.cluster r.service, .ok b⟩ ∧
      registered transcript = [b.active]
  /-- Rebinds are from the revision shown first to the one registered. -/
  rebinds : ∀ x ∈ transcript, ∀ cluster service source target,
    x.call = .rebind cluster service source target →
    (cluster = r.cluster ∧ service = r.service) ∧
      expected? transcript = some source ∧ registered transcript = [target]
  /-- A revision that is registered is also put to use. -/
  used : registered transcript ≠ [] → ∃ x ∈ transcript, x.call.operation = .rebind

section

variable {rules : Rules} {r : Request} {groups : List Group} {transcript : List Exchange}

theorem Stage.Opened.order {stage : Stage} (opened : stage.Opened r groups) :
    groups.map Group.operation ++ [stage.operation] <+: undisputed ∨
      groups.map Group.operation ++ [stage.operation] <+: disputed := by
  cases stage with
  | inspectBinding expected new memory conflict =>
    rw [opened.1]
    exact .inr ⟨_, rfl⟩
  | adjustAlarm expected new memory threshold =>
    obtain ⟨operations, _⟩ | ⟨operations, _⟩ := opened
    · rw [operations]
      exact .inl ⟨_, rfl⟩
    · rw [operations]
      exact .inr ⟨_, rfl⟩
  | _ =>
    rw [show groups.map Group.operation = _ from opened]
    exact .inl ⟨_, rfl⟩

/-- From the rebind on there is a rebind among the calls. -/
theorem Stage.Opened.rebinds {stage : Stage} (opened : stage.Opened r groups)
    (late : stage.rank ≤ 3) : .rebind ∈ groups.map Group.operation ++ [stage.operation] := by
  cases stage with
  | rebind expected new memory => exact List.mem_append_right _ (List.mem_singleton_self _)
  | inspectBinding expected new memory conflict =>
    rw [opened.1]
    simp
  | adjustAlarm expected new memory threshold =>
    obtain ⟨operations, _⟩ | ⟨operations, _⟩ := opened
    · simp [operations]
    · simp [operations]
  | _ => simp [rank] at late

/-- A cycle that ends before it rebinds has registered nothing. -/
theorem late_or_unregistered {stage : Stage} {outcome : Outcome} {last : (stage.call r).Reply}
    (advance : Advance rules r stage last (.inr outcome)) (recalls : outcome.Recalls transcript) :
    registered transcript = [] ∨ stage.rank ≤ 3 := by
  cases advance with
  | unbound | beaten | uninspected | adjusted | leftBehind => exact .inr (by simp [Stage.rank])
  | _ => exact .inl recalls

/-- The transcript of a whole cycle is in order. -/
theorem Follows.inOrder {report : Report}
    (follows : Follows rules r transcript (.ended report)) :
    ∃ groups, InOrder rules r transcript groups := by
  obtain ⟨groups, whole, through⟩ := follows.grouped
  have recalls : report.outcome.Recalls transcript := follows.recalls
  refine ⟨groups, ?_⟩
  generalize at_end : (Sum.inr report.outcome : Stage ⊕ Outcome) = next at through
  cases through with
  | start => cases at_end
  | @group groups stage next failures last before few spent advance =>
    subst at_end
    have opened := before.opened
    have through := Through.group failures last before few spent advance
    have operations : (groups ++ [(⟨stage.call r, failures, last⟩ : Group)]).map Group.operation =
        groups.map Group.operation ++ [stage.operation] := by
      simp [Group.operation]
    constructor
    case whole => exact whole
    case attempts => exact through.attempts
    case order => exact operations ▸ opened.order
    case left => exact through.left.1
    case inspected =>
      intro g member
      simp only [List.getLast?_append, List.getLast?_singleton, Option.some_or,
        Option.mem_def, Option.some.injEq] at member
      subst member
      exact advance.uncontested
    case alarm =>
      intro earlier g same patches
      obtain ⟨rfl, only⟩ := List.append_inj' same rfl
      obtain rfl := List.singleton_inj.mp only
      rw [Group.operation, Stage.call_operation] at patches
      cases stage with
      | adjustAlarm expected new memory threshold =>
        obtain ⟨operations, earlier, rebind, rfl, succeeded⟩ |
          ⟨_, earlier, rebind, look, b, rfl, contested, shown, rfl⟩ := opened
        · refine .inl ⟨earlier, rebind, rfl, ?_, succeeded⟩
          have last := congrArg List.getLast? operations
          simpa using last
        · refine .inr ⟨earlier, rebind, look, b, rfl, contested, shown, ?_⟩
          generalize report.outcome = outcome at advance recalls
          cases advance <;> exact recalls.2
      | _ => cases patches
    case rebinds => exact follows.rebinds
    case used =>
      intro named
      obtain none | late := late_or_unregistered advance recalls
      · exact absurd none named
      · have rebinds := opened.rebinds late
        rw [← operations] at rebinds
        obtain ⟨g, member, rebinds⟩ := List.mem_map.mp rebinds
        refine ⟨g.ending, ?_, rebinds⟩
        rw [whole]
        exact List.mem_flatMap.mpr ⟨g, member, by simp [Group.exchanges, Group.ending]⟩

end

/-- Make a call, and note it with its reply. -/
def recorded {σ : Type} (perform : σ → (call : Call) → call.Reply × σ)
    (w : σ × List Exchange) (call : Call) : call.Reply × (σ × List Exchange) :=
  ((perform w.1 call).1, (perform w.1 call).2, w.2 ++ [⟨call, (perform w.1 call).1⟩])

section

variable {σ : Type} (rules : Rules) (perform : σ → (call : Call) → call.Reply × σ)

/-- Noting the calls does not change a run. -/
theorem Course.run_recorded (w : σ × List Exchange) (c : Course) :
    { c.run rules (recorded perform) w with
      world := (c.run rules (recorded perform) w).world.1 } = c.run rules perform w.1 := by
  induction w, c using Course.run_induction rules (recorded perform) with
  | ended w c report ends =>
    have plain : (c.answer rules (perform w.1 c.call).1).next.standing = .ended report := ends
    rw [run_of_ended ends, run_of_ended plain]
    rfl
  | due w c next goes ih =>
    have plain : (c.answer rules (perform w.1 c.call).1).next.standing = .due next := goes
    rw [run_of_due goes, run_of_due plain]
    rw [← show _ = next.run rules perform (perform w.1 c.call).2 from ih]
    rfl

/-- Noting the calls does not change what is served. -/
theorem serve_recorded (world : σ) (r : Request) :
    let done := Controller.serve rules (recorded perform) (world, []) r
    { done with world := done.world.1 } = Controller.serve rules perform world r := by
  simp only [Controller.serve]
  rw [← Course.run_recorded rules perform (world, [])]

/-- The calls noted in a run lead to its report. -/
theorem Course.run_follows (world : σ) (r : Request) :
    Follows rules r ((start r).run rules (recorded perform) (world, [])).world.2
      (.ended ((start r).run rules (recorded perform) (world, [])).report) :=
  run_keeps (P := fun w standing => Follows rules r w.2 standing)
    (fun w c before => .answer (perform w.1 c.call).1 before) (world, []) (start r) .start

end

/-- Whatever a cycle's calls are answered with, it makes them in order. -/
theorem calls_in_order {σ : Type} (rules : Rules)
    (perform : σ → (call : Call) → call.Reply × σ) (world : σ) (r : Request) :
    let done := Controller.serve rules (recorded perform) (world, []) r
    { done with world := done.world.1 } = Controller.serve rules perform world r ∧
      ∃ groups, InOrder rules r done.world.2 groups := by
  refine ⟨?_, (Course.run_follows rules perform world r).inOrder⟩
  simp only [Controller.serve]
  rw [← Course.run_recorded rules perform (world, [])]

end Headroom.Cycle
