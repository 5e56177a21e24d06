import Headroom.Retry
import Mathlib.Algebra.BigOperators.Intervals
import Mathlib.Algebra.Order.BigOperators.Group.Finset

/-!
The loop of attempts in closed form. From any attempt on, a run goes through the transient
errors that follow each other and ends with the outcome after them (`runFrom_eq`): that
settles which response it returns, when each attempt begins, when the last one ends, and
how many were repeated, for responses of any kind and any length (`run_accounted`).
-/
namespace Headroom.Retry.Settings

variable {α : Type} (s : Settings) (operation : String) (respond : Nat → Response α)

/-- Whether the attempt of a number comes to a transient error, its own or that of the
time budget. -/
def failsForNow (attempt : Nat) : Bool :=
  match s.outcome operation (respond attempt) with
  | .error error => error.isTransient
  | .ok _ => false

/-- How many attempts, one after the other from a number on, come to a transient error;
no more than `left` are counted. -/
def repeated (attempt : Nat) : (left : Nat) → Nat
  | 0 => 0
  | left + 1 =>
    if s.failsForNow operation respond attempt then repeated (attempt + 1) left + 1 else 0

/-- When the attempt begins that follows `count` others, of which the first has the number
`attempt` and begins at `now`. -/
def startAfter (attempt now : Nat) : (count : Nat) → Nat
  | 0 => now
  | count + 1 =>
    startAfter attempt now count + s.duration (respond (attempt + count)) +
      s.backoff (attempt + count)

theorem repeated_le (attempt left : Nat) : s.repeated operation respond attempt left ≤ left := by
  induction left generalizing attempt with
  | zero => exact Nat.le_refl 0
  | succ left ih =>
    have later := ih (attempt + 1)
    unfold repeated
    split <;> omega

/-- All attempts that are counted come to a transient error. -/
theorem failsForNow_of_lt_repeated {attempt left i : Nat}
    (before : i < s.repeated operation respond attempt left) :
    s.failsForNow operation respond (attempt + i) = true := by
  induction left generalizing attempt i with
  | zero => simp [repeated] at before
  | succ left ih =>
    unfold repeated at before
    split at before
    · rename_i fails
      cases i with
      | zero => exact fails
      | succ i =>
        have later := ih (Nat.lt_of_succ_lt_succ before)
        rwa [Nat.add_right_comm] at later
    · simp at before

/-- The attempt after them does not, unless the attempts are used up. -/
theorem not_failsForNow_repeated {attempt left : Nat}
    (more : s.repeated operation respond attempt left < left) :
    s.failsForNow operation respond (attempt + s.repeated operation respond attempt left) =
      false := by
  induction left generalizing attempt with
  | zero => simp at more
  | succ left ih =>
    unfold repeated at more ⊢
    split at more
    · rename_i fails
      have later := ih (Nat.lt_of_succ_lt_succ more)
      rw [if_pos fails, Nat.add_comm _ 1, ← Nat.add_assoc]
      exact later
    · rename_i stands
      simp [stands]

/-- The numbers of attempts may be counted from any of them on. -/
theorem startAfter_succ (attempt now count : Nat) :
    s.startAfter respond (attempt + 1)
        (now + s.duration (respond attempt) + s.backoff attempt) count =
      s.startAfter respond attempt now (count + 1) := by
  induction count with
  | zero => rfl
  | succ count ih =>
    rw [startAfter, ih, startAfter.eq_2 _ _ _ _ (count + 1), Nat.add_right_comm attempt 1 count]
    rfl

/-- So may a list of all beginnings. -/
theorem cons_map_startAfter (attempt now count : Nat) :
    now :: (List.range count).map (s.startAfter respond (attempt + 1)
        (now + s.duration (respond attempt) + s.backoff attempt)) =
      (List.range (count + 1)).map (s.startAfter respond attempt now) := by
  rw [List.range_succ_eq_map, List.map_cons, List.map_map]
  exact congrArg (now :: ·)
    (List.map_congr_left fun before _ => s.startAfter_succ respond attempt now before)

/-- A transient error is followed by the next attempt, after the pause. -/
theorem runFrom_again {attempt : Nat} (fails : s.failsForNow operation respond attempt = true)
    (now left : Nat) :
    s.runFrom operation respond attempt now (left + 1) =
      let later := s.runFrom operation respond (attempt + 1)
        (now + s.duration (respond attempt) + s.backoff attempt) left
      { later with starts := now :: later.starts, retries := later.retries + 1 } := by
  rw [runFrom]
  unfold failsForNow at fails
  cases outcome : s.outcome operation (respond attempt) with
  | ok value => simp [outcome] at fails
  | error error =>
    cases error with
    | transient detail => rfl
    | _ => simp [outcome, Error.isTransient] at fails

/-- Any other outcome is the last one. -/
theorem runFrom_stop {attempt : Nat} (stands : s.failsForNow operation respond attempt = false)
    (now left : Nat) :
    s.runFrom operation respond attempt now left =
      ⟨s.outcome operation (respond attempt), [now], now + s.duration (respond attempt), 0⟩ := by
  cases left with
  | zero => rfl
  | succ left =>
    rw [runFrom]
    unfold failsForNow at stands
    cases outcome : s.outcome operation (respond attempt) with
    | ok value => rfl
    | error error =>
      cases error with
      | transient detail => simp [outcome, Error.isTransient] at stands
      | _ => rfl

/-- A run from any attempt on, in closed form. -/
theorem runFrom_eq (attempt now left : Nat) :
    s.runFrom operation respond attempt now left =
      let again := s.repeated operation respond attempt left
      { result := s.outcome operation (respond (attempt + again))
        starts := (List.range (again + 1)).map (s.startAfter respond attempt now)
        finish := s.startAfter respond attempt now again + s.duration (respond (attempt + again))
        retries := again } := by
  induction left generalizing attempt now with
  | zero => rfl
  | succ left ih =>
    cases fails : s.failsForNow operation respond attempt with
    | false => simp [runFrom_stop _ _ _ fails, repeated, fails, startAfter]
    | true =>
      have next (count : Nat) : attempt + 1 + count = attempt + (count + 1) := by omega
      rw [runFrom_again _ _ _ fails, ih]
      simp only [repeated, fails, if_true, startAfter_succ, cons_map_startAfter, next]

/-- An attempt begins no later than if every one before it had used up its time. -/
theorem startAfter_le (count : Nat) :
    s.startAfter respond 1 0 count ≤
      count * s.callTimeout + ∑ i ∈ Finset.Ico 1 (count + 1), s.backoff i := by
  induction count with
  | zero => exact Nat.zero_le _
  | succ count ih =>
    have within : s.duration (respond (1 + count)) ≤ s.callTimeout := Nat.min_le_right _ _
    rw [startAfter, Finset.sum_Ico_succ_top (by omega), Nat.succ_mul, Nat.add_comm count 1]
    rw [Nat.add_comm count 1] at ih
    omega

/-- A run makes its calls up to the first whose outcome is not a transient error, or as many
as are allowed, and returns the outcome of the last. Each call begins when the one before
it has ended and its pause is over; the run ends with the last call; and it counts the
calls that it has repeated. -/
theorem run_accounted :
    ∃ k, IsLeast {i | 1 ≤ i ∧ (i = s.attempts ∨ ¬ s.failsForNow operation respond i)} k ∧
      let trace := s.run operation respond
      trace.starts.length = k ∧
      trace.result = s.outcome operation (respond k) ∧
      trace.starts[0]? = some 0 ∧
      (∀ i, i + 1 < k → ∃ start, trace.starts[i]? = some start ∧
        trace.starts[i + 1]? =
          some (start + min (respond (i + 1)).delay s.callTimeout + s.backoff (i + 1))) ∧
      (∃ start, trace.starts[k - 1]? = some start ∧
        trace.finish = start + min (respond k).delay s.callTimeout) ∧
      trace.retries = k - 1 ∧
      trace.finish ≤ s.attempts * s.callTimeout + ∑ i ∈ Finset.Ico 1 s.attempts, s.backoff i := by
  have most := s.repeated_le operation respond 1 (s.attempts - 1)
  have allowed : 1 ≤ s.attempts := Nat.le_max_right _ _
  have closed := s.runFrom_eq operation respond 1 0 (s.attempts - 1)
  have stands := @not_failsForNow_repeated α s operation respond 1 (s.attempts - 1)
  have fails := @failsForNow_of_lt_repeated α s operation respond 1 (s.attempts - 1)
  simp only [run, closed]
  generalize s.repeated operation respond 1 (s.attempts - 1) = again at *
  -- the call of number i + 1 stands at place i
  have begun (i : Nat) (inside : i ≤ again) :
      ((List.range (again + 1)).map (s.startAfter respond 1 0))[i]? =
        some (s.startAfter respond 1 0 i) := by
    simp [List.getElem?_range (Nat.lt_succ_of_le inside)]
  refine ⟨1 + again, ⟨⟨by omega, ?_⟩, ?_⟩, by simp [Nat.add_comm], rfl, begun 0 (by omega), ?_,
    ⟨_, ?_, rfl⟩, by omega, ?_⟩
  · rcases Nat.lt_or_ge again (s.attempts - 1) with fewer | all
    · exact .inr (by simp [stands fewer])
    · exact .inl (by omega)
  · rintro i ⟨first, last⟩
    -- an earlier call would have been repeated, so neither reason to stop applies to it
    by_contra earlier
    obtain ⟨j, rfl⟩ : ∃ j, i = 1 + j := ⟨i - 1, by omega⟩
    exact last.elim (fun all => by omega) (fun ends => ends (fails (by omega)))
  · intro i inside
    refine ⟨_, begun i (by omega), ?_⟩
    rw [begun (i + 1) (by omega), startAfter, Nat.add_comm i 1]
    rfl
  · rw [Nat.add_sub_cancel_left]
    exact begun again (Nat.le_refl again)
  · have within : s.duration (respond (1 + again)) ≤ s.callTimeout := Nat.min_le_right _ _
    have calls : (again + 1) * s.callTimeout ≤ s.attempts * s.callTimeout :=
      Nat.mul_le_mul_right _ (by omega)
    have pauses : ∑ i ∈ Finset.Ico 1 (again + 1), s.backoff i ≤
        ∑ i ∈ Finset.Ico 1 s.attempts, s.backoff i :=
      Finset.sum_le_sum_of_subset (Finset.Ico_subset_Ico_right (by omega))
    have start := s.startAfter_le respond again
    rw [Nat.succ_mul] at calls
    omega

/-- The first call takes too long and the second one fails soon: each pause follows the end
of the call before it. -/
example :
    ({} : Settings).run "describe" (fun
      | 1 => ⟨20000, .ok 1⟩
      | 2 => ⟨5, .error (.transient "connection reset")⟩
      | n => ⟨30, .ok n⟩) = ⟨.ok 3, [0, 10200, 10605], 10635, 2⟩ := rfl

end Headroom.Retry.Settings
