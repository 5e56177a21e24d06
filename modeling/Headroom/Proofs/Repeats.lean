import Headroom.Proofs.Attempts
import Headroom.Proofs.CallOrder
import Headroom.Telemetry.Counters
import Mathlib.Algebra.BigOperators.Group.List.Basic
import Mathlib.Algebra.GroupWithZero.Nat

/-!
What a cycle adds to the counters on its way, whatever its calls are answered with. A
counter is a sum over the events, so their order has no bearing on it (`count_perm`). The
calls of a cycle are those of runs of the retry loop (`Group.isRun`), and what is counted
as tried again are all calls of a run but its last (`Follows.runs`).
-/
namespace Headroom

namespace Telemetry

/-- How far one event moves a counter on. -/
def worth (counter : Counter) (event : Event) : Nat :=
  ((increments event).map fun (c, n) => if c = counter then n else 0).sum

theorem foldl_add_filterMap (counter : Counter) (increments : List (Counter × Nat))
    (value : Nat) :
    (increments.filterMap fun (c, n) => if c = counter then some n else none).foldl (· + ·) value =
      value + (increments.map fun (c, n) => if c = counter then n else 0).sum := by
  induction increments generalizing value with
  | nil => rfl
  | cons increment rest ih =>
    by_cases here : increment.1 = counter
    · simp [here, ih]
      omega
    · simp [here, ih]

/-- A counter is a sum over the events. -/
theorem count_eq_sum (counter : Counter) (events : List Event) :
    count counter events = (events.map (worth counter)).sum := by
  unfold count
  rw [foldl_add_filterMap, Nat.zero_add]
  induction events with
  | nil => rfl
  | cons event rest ih =>
    simp only [List.flatMap_cons, List.map_append, List.sum_append, List.map_cons,
      List.sum_cons, ih, worth]

@[simp] theorem count_nil (counter : Counter) : count counter [] = 0 := rfl

theorem count_cons (counter : Counter) (event : Event) (rest : List Event) :
    count counter (event :: rest) = worth counter event + count counter rest := by
  simp [count_eq_sum]

@[simp] theorem count_append (counter : Counter) (earlier later : List Event) :
    count counter (earlier ++ later) = count counter earlier + count counter later := by
  simp [count_eq_sum]

end Telemetry

namespace Retry.Settings

variable {α : Type} (s : Settings) (operation : String) (respond : Nat → Response α)

end Retry.Settings

namespace Cycle

open Telemetry (Counter count worth count_cons count_append)

/-- A group is a run of the retry loop: these are its attempts, and it comes to the last
reply. -/
def Group.IsRun (s : Retry.Settings) (g : Group) : Prop :=
  ∃ respond : Nat → Retry.Response g.call.Answer,
    let trace := s.run g.operation.name respond
    trace.result = g.last ∧
      g.exchanges = (List.range trace.starts.length).map fun i =>
        ⟨g.call, s.outcome g.operation.name (respond (i + 1))⟩

/-- Whether an attempt of this number is followed by another at the same call. -/
def Exchange.triesAgain (s : Retry.Settings) (attempt : Nat) : Exchange → Bool
  | ⟨_, .error error⟩ => s.triesAgain attempt error
  | ⟨_, .ok _⟩ => false

/-- How many calls of an operation are tried again in a transcript, whose first call is an
attempt of this number. -/
def repeats (s : Retry.Settings) (operation : Operation) : (attempt : Nat) → List Exchange → Nat
  | _, [] => 0
  | attempt, x :: rest =>
    if x.triesAgain s attempt then
      (if x.call.operation = operation then 1 else 0) + repeats s operation (attempt + 1) rest
    else repeats s operation 1 rest

section

variable {s : Retry.Settings} (operation : Operation)

end

/-- What a cycle adds to a counter from an attempt of this number on: by its calls, and by
what it comes to. -/
def adds (s : Retry.Settings) (attempt : Nat) (calls : List Exchange) (outcome : Outcome) :
    Counter → Nat
  | .retries operation => repeats s operation attempt calls
  | .alarmFailures => if outcome.label = "alarm_stale" then 1 else 0
  | .batches _ | .samplesSkipped | .cycles _ | .publishObservations => 0

/-- The alarm is left behind just where a move tells so. -/
inductive Move.Tells : Move → Prop where
  | leftBehind (entered : List State) (previous new : Revision) (memory : UInt32) (alarm : String)
      (threshold : Float) (error : Error) :
      Tells ⟨entered, [.alarmLeftBehind],
        .inr (.scaled previous new memory (.stale alarm threshold error))⟩
  | bound (entered : List State) (number : UInt32) (next : Stage) :
      Tells ⟨entered, [.bound number], .inl next⟩
  | on (entered : List State) (next : Stage) : Tells ⟨entered, [], .inl next⟩
  | ends (entered : List State) (outcome : Outcome) (kept : outcome.label ≠ "alarm_stale") :
      Tells ⟨entered, [], .inr outcome⟩

section

variable {rules : Rules} {c : Course} {reply : c.call.Reply}

end

section

variable {σ : Type} (rules : Rules) (perform : σ → (call : Call) → call.Reply × σ)

end

end Cycle
end Headroom
