import Headroom.Proofs.Transcript

/-!
What a transcript has of the way to where a cycle stands, whatever the collaborators
answer. A cycle plans from an allocation that it was shown as the latest of its family,
registers the plan, and asks for its service to be bound to what it registered. The only
alarm that it sets is its request's, and the threshold is for the memory of what it
registered (`Follows.patches`).
-/
namespace Headroom.Cycle

section

variable (rules : Rules) (r : Request) (transcript : List Exchange)

/-- The candidate is planned from an allocation that was shown as the latest. -/
def Sized (candidate : Allocation) : Prop :=
  ∃ current, ⟨.describe r.family, .ok current⟩ ∈ transcript ∧
    rules.sizing.plan current r.container = .ok (.scaleTo candidate)

/-- A candidate with so much memory was registered as this revision. -/
def Filed (new : Revision) (memory : UInt32) : Prop :=
  ∃ candidate, Sized rules r transcript candidate ∧ candidate.memory = memory ∧
    ⟨.register candidate, .ok new⟩ ∈ transcript

/-- The service was to be bound to a revision that was registered for it. -/
structure Offered (expected new : Revision) (memory : UInt32) : Prop where
  filed : Filed rules r transcript new memory
  rebind : ∃ reply, ⟨.rebind r.cluster r.service expected new, reply⟩ ∈ transcript

/-- What a stage goes by is in the transcript. -/
def Stage.Sourced : Stage → Prop
  | .readBinding | .readAllocation _ => True
  | .confirmBinding _ candidate | .register _ candidate => Sized rules r transcript candidate
  | .rebind _ new memory => Filed rules r transcript new memory
  | .inspectBinding expected new memory _ => Offered rules r transcript expected new memory
  | .adjustAlarm expected new memory threshold =>
    Offered rules r transcript expected new memory ∧ threshold = rules.thresholds.threshold memory

/-- The alarm was to be set for a revision that was registered, and this was the reply. -/
structure Adjusted (expected new : Revision) (memory : UInt32) (alarm : String)
    (threshold : Float) (reply : Except Error Unit) : Prop where
  offered : Offered rules r transcript expected new memory
  own : alarm = r.alarm
  exactly : threshold = rules.thresholds.threshold memory
  patch : ⟨.patchAlarm alarm threshold, reply⟩ ∈ transcript

/-- What a report of a move says is in the transcript. -/
def Outcome.Sourced : Outcome → Prop
  | .scaled previous new memory (.patched alarm threshold) =>
    Adjusted rules r transcript previous new memory alarm threshold (.ok ())
  | .scaled previous new memory (.stale alarm threshold error) =>
    Adjusted rules r transcript previous new memory alarm threshold (.error error)
  | _ => True

end

variable {rules : Rules} {r : Request} {transcript later : List Exchange}

theorem Sized.mono {candidate : Allocation} (sized : Sized rules r transcript candidate)
    (grown : transcript ⊆ later) : Sized rules r later candidate := by
  obtain ⟨current, shown, plan⟩ := sized
  exact ⟨current, grown shown, plan⟩

theorem Filed.mono {new : Revision} {memory : UInt32} (filed : Filed rules r transcript new memory)
    (grown : transcript ⊆ later) : Filed rules r later new memory := by
  obtain ⟨candidate, sized, size, registered⟩ := filed
  exact ⟨candidate, sized.mono grown, size, grown registered⟩

theorem Offered.mono {expected new : Revision} {memory : UInt32}
    (offered : Offered rules r transcript expected new memory) (grown : transcript ⊆ later) :
    Offered rules r later expected new memory := by
  obtain ⟨filed, reply, rebind⟩ := offered
  exact ⟨filed.mono grown, reply, grown rebind⟩

theorem Stage.Sourced.mono {stage : Stage} (sourced : stage.Sourced rules r transcript)
    (grown : transcript ⊆ later) : stage.Sourced rules r later := by
  cases stage with
  | readBinding => trivial
  | readAllocation expected => trivial
  | confirmBinding expected candidate => exact Sized.mono sourced grown
  | register expected candidate => exact Sized.mono sourced grown
  | rebind expected new memory => exact Filed.mono sourced grown
  | inspectBinding expected new memory conflict => exact Offered.mono sourced grown
  | adjustAlarm expected new memory threshold => exact ⟨sourced.1.mono grown, sourced.2⟩

/-- A settled reply takes a cycle on to a stage that goes by the longer transcript. -/
theorem Advance.sourced_stage {stage next : Stage} {reply : (stage.call r).Reply}
    (advance : Advance rules r stage reply (.inl next))
    (sourced : stage.Sourced rules r transcript) :
    next.Sourced rules r (transcript ++ [⟨stage.call r, reply⟩]) := by
  have grown : transcript ⊆ transcript ++ [⟨stage.call r, reply⟩] := List.subset_append_left _ _
  have here : ⟨stage.call r, reply⟩ ∈ transcript ++ [⟨stage.call r, reply⟩] :=
    List.mem_append_right _ List.mem_cons_self
  cases advance with
  | bindingRead b => trivial
  | @planned current candidate expected plan => exact ⟨current, here, plan⟩
  | confirmed candidate same => exact Sized.mono sourced grown
  | registered expected candidate new => exact ⟨candidate, Sized.mono sourced grown, rfl, here⟩
  | rebound expected new memory => exact ⟨⟨Filed.mono sourced grown, _, here⟩, rfl⟩
  | contested expected new memory detail => exact ⟨Filed.mono sourced grown, _, here⟩
  | applied expected memory conflict bound => exact ⟨Offered.mono sourced grown, rfl⟩

theorem Advance.sourced_outcome {stage : Stage} {outcome : Outcome} {reply : (stage.call r).Reply}
    (advance : Advance rules r stage reply (.inr outcome))
    (sourced : stage.Sourced rules r transcript) :
    outcome.Sourced rules r (transcript ++ [⟨stage.call r, reply⟩]) := by
  have grown : transcript ⊆ transcript ++ [⟨stage.call r, reply⟩] := List.subset_append_left _ _
  have here : ⟨stage.call r, reply⟩ ∈ transcript ++ [⟨stage.call r, reply⟩] :=
    List.mem_append_right _ List.mem_cons_self
  cases advance with
  | adjusted expected new memory threshold =>
    exact ⟨sourced.1.mono grown, rfl, sourced.2, here⟩
  | leftBehind expected new memory threshold error =>
    exact ⟨sourced.1.mono grown, rfl, sourced.2, here⟩
  | _ => trivial

namespace Follows

variable {standing : Standing}

theorem sourced (follows : Follows rules r transcript standing) :
    standing.Meets (Stage.Sourced rules r transcript) (Outcome.Sourced rules r transcript) := by
  induction follows with
  | start => trivial
  | @answer transcript c reply before ih =>
    obtain rfl := before.request_eq c rfl
    have here : c.stage.Sourced rules c.request transcript := ih
    refine c.answer_cases rules reply ?_ ?_ ?_
    · intro detail _ _
      exact here.mono (List.subset_append_left _ _)
    · intro stage path advance _
      exact advance.sourced_stage here
    · intro outcome path advance _
      exact advance.sourced_outcome here

/-- A cycle sets no alarm but its own, and for what it registered. -/
theorem patches (follows : Follows rules r transcript standing) :
    ∀ x ∈ transcript, ∀ alarm threshold, x.call = .patchAlarm alarm threshold →
      alarm = r.alarm ∧ ∃ expected new memory, Offered rules r transcript expected new memory ∧
        threshold = rules.thresholds.threshold memory := by
  induction follows with
  | start => exact fun x member => by cases member
  | @answer transcript c reply before ih =>
    intro x member alarm threshold patch
    have grown : transcript ⊆ transcript ++ [⟨c.call, reply⟩] := List.subset_append_left _ _
    rcases List.mem_append.mp member with old | new
    · obtain ⟨own, expected, new, memory, offered, exactly⟩ := ih x old alarm threshold patch
      exact ⟨own, expected, new, memory, offered.mono grown, exactly⟩
    · rw [List.mem_singleton.mp new] at patch
      obtain ⟨expected, new, memory, stage⟩ := Stage.of_call_patchAlarm patch
      have sourced : c.stage.Sourced rules r transcript := before.sourced
      rw [stage] at sourced
      simp only [Course.call, stage, Stage.call, Call.patchAlarm.injEq] at patch
      rw [← patch.1, before.request_eq c rfl]
      exact ⟨rfl, expected, new, memory, sourced.1.mono grown, sourced.2⟩

/-- A cycle whose service was bound to what it registered takes it to be moved. -/
theorem moved_of_rebound (follows : Follows rules r transcript standing) :
    ∀ cluster service source target,
      ⟨.rebind cluster service source target, .ok ()⟩ ∈ transcript →
      standing.moved? = some (source, target) := by
  induction follows with
  | start => exact fun _ _ _ _ member => by cases member
  | @answer transcript c reply before ih =>
    intro cluster service source target member
    obtain ⟨_, stage, attempt, walked⟩ := c
    rcases List.mem_append.mp member with old | new
    · have moved : stage.moved? = some (source, target) := ih cluster service source target old
      refine Course.answer_cases
        (motive := fun standing => standing.moved? = some (source, target)) rules _ reply ?_ ?_ ?_
      · intro detail _ _
        exact moved
      · intro next path advance _
        cases advance <;> cases moved
      · intro outcome path advance _
        cases advance <;> exact moved
    · have exchange := List.mem_singleton.mp new
      obtain ⟨-, memory, rfl⟩ := Stage.of_call_rebind (congrArg Exchange.call exchange).symm
      cases exchange
      rfl

/-- A cycle whose alarm was set is over. -/
theorem ended_of_patched (follows : Follows rules r transcript standing) :
    ∀ alarm threshold, ⟨.patchAlarm alarm threshold, .ok ()⟩ ∈ transcript →
      ∃ previous new memory path,
        standing = .ended ⟨.scaled previous new memory (.patched alarm threshold), path⟩ := by
  induction follows with
  | start => exact fun _ _ member => by cases member
  | @answer transcript c reply before ih =>
    intro alarm threshold member
    rcases List.mem_append.mp member with old | last
    · obtain ⟨_, _, _, _, closed⟩ := ih alarm threshold old
      cases closed
    · obtain ⟨_, stage, attempt, walked⟩ := c
      have exchange := List.mem_singleton.mp last
      obtain ⟨expected, new, memory, rfl⟩ :=
        Stage.of_call_patchAlarm (congrArg Exchange.call exchange).symm
      cases exchange
      exact ⟨expected, new, memory, _, rfl⟩

/-- A cycle that reports a move has asked for a threshold of its alarm. -/
theorem patch_of_moved {report : Report} (follows : Follows rules r transcript (.ended report))
    {source target : Revision} (moved : report.outcome.moved? = some (source, target)) :
    ∃ threshold reply, ⟨.patchAlarm r.alarm threshold, reply⟩ ∈ transcript := by
  have sourced : report.outcome.Sourced rules r transcript := follows.sourced
  obtain ⟨outcome, path⟩ := report
  cases outcome with
  | scaled previous new memory update =>
    cases update with
    | patched alarm threshold =>
      obtain ⟨-, rfl, -, patch⟩ := sourced
      exact ⟨threshold, _, patch⟩
    | stale alarm threshold error =>
      obtain ⟨-, rfl, -, patch⟩ := sourced
      exact ⟨threshold, _, patch⟩
  | _ => cases moved

end Follows
end Headroom.Cycle
