import Headroom.Proofs.Capacity
import Headroom.Proofs.Origins
import Headroom.Proofs.Sizes

/-!
What a report of saturation says. Every step of a valid policy raises memory that is not
zero, so a plan stops only at the ceiling. The plan is made of the latest allocation,
which the service need not run with: a cycle that fails to bind what it has registered
leaves it on top of the history, and if that is at the ceiling, nothing is ever planned
again (`orphan_saturates`).
-/
namespace Headroom.Interleaving

open Headroom.Cycle

variable {ι : Type} [DecidableEq ι]

section

variable {setup : Setup ι} {stores : Stores} {s : State ι} {controller : Nat} {r : Request}

/-- While one controller serves all requests, the answer to a cycle's call still tells
how the stores are when it arrives. -/
theorem Reachable.tells (reachable : Reachable setup stores s)
    (shares : setup.Shares controller r) :
    ∀ i course (answer : course.call.Answer), s.phase i = .answered course (.ok answer) →
      course.request = setup.request i ∧ s.stores.Tells course.call answer := by
  refine reachable.invariant (P := fun s => ∀ i course (answer : course.call.Answer),
    s.phase i = .answered course (.ok answer) →
      course.request = setup.request i ∧ s.stores.Tells course.call answer)
    (fun i course answer here => by cases here) ?_
  intro s s' reached tells step i course answer here
  -- a step that puts a cycle in a phase without an answer leaves the other cycles alone
  have elsewhere : ∀ {j : ι} {phase : Phase}, (∀ course reply, phase ≠ .answered course reply) →
      Function.update s.phase j phase i = .answered course (.ok answer) →
      course.request = setup.request i ∧ s.stores.Tells course.call answer := by
    intro j phase silent here
    by_cases same : i = j
    · subst same
      rw [Function.update_self] at here
      exact absurd here (silent _ _)
    · rw [Function.update_of_ne same] at here
      exact tells i course answer here
  cases step with
  | turnedAway => exact elsewhere (by rintro _ _ ⟨⟩) here
  | admitted => exact elsewhere (by rintro _ _ ⟨⟩) here
  | resumed => exact elsewhere (by rintro _ _ ⟨⟩) here
  | ended => exact elsewhere (by rintro _ _ ⟨⟩) here
  | @called j course' reply after calling fault attempted =>
    by_cases same : i = j
    · subst same
      have due : s.standing? setup i = some (.due course') := by
        simp only [State.standing?, calling]
      have request := reached.request_eq due
      simp only [State.called, Function.update_self] at here
      cases here
      exact ⟨request, attempted.tells⟩
    · have works : (s.phase i).Works := by
        simp only [State.called, Function.update_of_ne same] at here
        rw [here]
        trivial
      have works' : (s.phase j).Works := by rw [calling]; trivial
      exact absurd (reached.exclusive works works'
        ((shares.controller i).trans (shares.controller j).symm)
        ((shares.key i).trans (shares.key j).symm)) same

end

/-- What a report of saturation stands for: the latest allocation of the family is the
one reported and has reached the policy's ceiling, and so has what the service runs with
if that is the latest. -/
structure AtCeiling (p : Sizing.Policy) (r : Request) (s : Stores) (current : Revision)
    (memory ceiling : UInt32) : Prop where
  latest : ∃ latest, (s.registry.history r.family).getLast? = some latest ∧
    latest.revision = current ∧ latest.memory = memory
  limit : ceiling = p.maxMemory
  /-- No factor raises an allocation without memory. -/
  reached : ceiling ≤ memory ∨ memory = 0 ∧ ∃ factor, p.step = .times factor
  running : s.bound? r.cluster r.service = some current →
    ∃ running, s.running? r.cluster r.service = some running ∧ running.memory = memory

/-- One controller serves all requests for a service. Whatever befalls the calls, a cycle
that has just ended and reports saturation is right about the latest allocation of the
family. -/
theorem saturated_at_latest {setup : Setup ι} {stores : Stores} {s : State ι}
    {controller : Nat} {r : Request}
    (reachable : Reachable setup stores s) (shares : setup.Shares controller r)
    (sound : stores.registry.Sound)
    (room : (s.stores.registry.history r.family).length < UInt32.size) :
    ∀ move s', s.step? setup move = some s' → ∀ i path current memory ceiling,
      (∀ report, s.phase i ≠ .finished report) →
      s'.phase i = .finished ⟨.saturated current memory ceiling, path⟩ →
      AtCeiling (setup.rules controller).sizing r s'.stores current memory ceiling := by
  intro move s' due i path current memory ceiling before after
  obtain busy | ⟨works, here, stores⟩ := (State.step due).ends before after
  · cases busy
  rw [stores]
  cases phase : s.phase i with
  | arriving => rw [phase] at works; exact works.elim
  | finished report => exact absurd phase (before report)
  | calling course => simp [State.standing?, phase] at here
  | answered course reply =>
    have shown := fun answer => reachable.tells shares i course answer
    rw [phase] at shown
    simp only [State.standing?, phase, Option.some.injEq] at here
    obtain ⟨asked, stage, attempt, walked⟩ := course
    revert here
    refine Course.answer_cases (motive := fun standing =>
      standing = .ended ⟨.saturated current memory ceiling, path⟩ → _) _ _ reply
      (by rintro _ _ _ ⟨⟩) (by rintro _ _ _ _ ⟨⟩) ?_
    rintro outcome path' advance _ ended
    obtain ⟨rfl, rfl⟩ := Report.mk.inj (Standing.ended.inj ended)
    cases advance with
    | @saturated latest memory ceiling expected plan =>
      obtain ⟨rfl, last⟩ := shown latest rfl
      change (s.stores.registry.history (setup.request i).family).getLast? = some latest at last
      rw [(shares.target i).family] at last
      rw [shares.controller] at plan
      obtain ⟨rfl, limit, reached⟩ := Sizing.Policy.plan_saturated plan
      refine ⟨⟨latest, last, rfl, rfl⟩, limit, reached, fun bound => ⟨latest, ?_, rfl⟩⟩
      have filed := List.mem_of_getLast? last
      have sound' := reachable.sound sound
      rw [Stores.running?, bound, Option.bind_some]
      simp only [Allocation.revision, sound'.family filed]
      exact sound'.revision?_of_mem room filed

/-- Two requests for one service at one controller, with a ceiling one step above the
start. -/
def capped : Setup Bool where
  rules _ := { sizing := { maxMemory := 768 } }
  controller _ := 0
  request _ := series.request false

theorem capped_shares : capped.Shares 0 (series.request false) :=
  ⟨fun _ => rfl, fun _ => ⟨rfl, rfl, rfl, rfl⟩⟩

/-- The first cycle scales the service up to the ceiling; the second one is about to take
the answer that shows it the latest allocation. -/
def cappedMoves : List (Move Bool) :=
  [.arrive false] ++ turns false 6 ++ [.arrive true] ++ turns true 1 ++ [.call true .none]

theorem capped_at_ceiling : ∃ s s', ({ stores := seriesStores } : State Bool).run? capped
    cappedMoves = some s ∧ s.step? capped (.take true) = some s' ∧
    s'.stores.bound? "main" "api" = some ⟨"api", 2⟩ ∧
    AtCeiling { maxMemory := 768 } (series.request false) s'.stores ⟨"api", 2⟩ 768 768 := by
  have ran : (({ stores := seriesStores } : State Bool).run? capped cappedMoves).bind (fun s =>
      (s.step? capped (.take true)).map fun s' =>
        ((s.phase true).outcome?, (s'.phase true).outcome?, s'.stores.bound? "main" "api")) =
      some (none, some (.saturated ⟨"api", 2⟩ 768 768), some ⟨"api", 2⟩) := by decide +kernel
  obtain ⟨s, reached, last⟩ := Option.bind_eq_some_iff.mp ran
  obtain ⟨s', due, facts⟩ := Option.map_eq_some_iff.mp last
  simp only [Prod.mk.injEq] at facts
  obtain ⟨before, after, bound⟩ := facts
  obtain ⟨path, ended⟩ := Phase.of_outcome? after
  refine ⟨s, s', reached, due, bound, saturated_at_latest (Reachable.start.run reached)
    capped_shares (Registry.Sound.empty.append _) ?_ _ s' due true path _ _ _ ?_ ended⟩
  · exact State.run?_room reached (by decide)
  · intro report finished
    rw [finished] at before
    cases before

/-- A service is at the ceiling whenever a cycle has reported that its memory is. -/
def State.FullWhenSaturated (setup : Setup ι) (s : State ι) : Prop :=
  ∀ i path current memory ceiling running,
    s.phase i = .finished ⟨.saturated current memory ceiling, path⟩ →
    s.stores.running? (setup.request i).cluster (setup.request i).service = some running →
    (setup.rules (setup.controller i)).sizing.maxMemory ≤ running.memory

/-- The first cycle registers its plan, but the orchestrator refuses to bind it; the
second one is shown that plan. -/
def orphanMoves : List (Move Bool) :=
  [.arrive false] ++ turns false 4 ++
    [.call false (.refused (.validation "service is draining")), .take false, .arrive true] ++
    turns true 2

/-- The same service, once without any memory and with a factor for its steps. -/
def void : Setup Bool where
  rules _ := { sizing := { step := .times 1.5 } }
  controller _ := 0
  request _ := series.request false

def voidStores : Stores where
  registry := ({} : Registry).append { family := "api", number := 0, cpu := 256, memory := 0 }
  fleet := seriesStores.fleet

def voidMoves : List (Move Bool) := [.arrive false] ++ turns false 2

/-- A plan that was never bound to the service saturates the family below the ceiling,
and so does an allocation without memory. -/
theorem orphan_saturates :
    (seriesStores.BoundToLatest "main" "api" "api" ∧
      ∃ s, ({ stores := seriesStores } : State Bool).run? capped orphanMoves = some s ∧
      ¬ s.FullWhenSaturated capped) ∧
    voidStores.BoundToLatest "main" "api" "api" ∧
      ∃ s, ({ stores := voidStores } : State Bool).run? void voidMoves = some s ∧
        ¬ s.FullWhenSaturated void := by
  refine ⟨⟨⟨_, rfl, rfl⟩, ?_⟩, ⟨_, rfl, rfl⟩, ?_⟩
  · have ran : (({ stores := seriesStores } : State Bool).run? capped orphanMoves).map (fun s =>
        ((s.phase true).outcome?, s.stores.running? "main" "api")) =
        some (some (.saturated ⟨"api", 2⟩ 768 768),
          some { family := "api", number := 1, cpu := 256, memory := 512 }) := by decide +kernel
    obtain ⟨s, reached, facts⟩ := Option.map_eq_some_iff.mp ran
    simp only [Prod.mk.injEq] at facts
    obtain ⟨path, ended⟩ := Phase.of_outcome? facts.1
    refine ⟨s, reached, fun full => ?_⟩
    exact absurd (full true path _ _ _ _ ended facts.2) (by decide)
  · have ran : (({ stores := voidStores } : State Bool).run? void voidMoves).map (fun s =>
        ((s.phase false).outcome?, s.stores.running? "main" "api")) =
        some (some (.saturated ⟨"api", 1⟩ 0 4096),
          some { family := "api", number := 1, cpu := 256, memory := 0 }) := by decide +kernel
    obtain ⟨s, reached, facts⟩ := Option.map_eq_some_iff.mp ran
    simp only [Prod.mk.injEq] at facts
    obtain ⟨path, ended⟩ := Phase.of_outcome? facts.1
    refine ⟨s, reached, fun full => ?_⟩
    exact absurd (full false path _ _ _ _ ended facts.2) (by decide)

end Headroom.Interleaving
