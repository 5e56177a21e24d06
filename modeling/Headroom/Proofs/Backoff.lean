import Headroom.Retry
import Mathlib.Algebra.Order.Group.Nat

/-!
The pauses between attempts. Neither the factor of 32 bits nor the longest time that can be
represented makes itself felt below the cap: a pause is the first one doubled with each retry,
up to the cap (`backoff_doubles_to_cap`), however finely times are counted: `backoff` counts a
thousand parts a second.
-/
namespace Headroom.Retry.Settings

/-- The factor is a power of two as long as that has 32 bits. -/
theorem factor_eq_min (retry : Nat) : factor retry = min (2 ^ (retry - 1)) largestFactor := by
  unfold factor
  split
  · rename_i few
    have below : 2 ^ (retry - 1) ≤ 2 ^ 31 := Nat.pow_le_pow_right (by decide) (by omega)
    have largest : 2 ^ 31 ≤ largestFactor := by decide
    exact (Nat.min_eq_left (Nat.le_trans below largest)).symm
  · rename_i many
    have above : 2 ^ 32 ≤ 2 ^ (retry - 1) := Nat.pow_le_pow_right (by decide) (by omega)
    have largest : largestFactor ≤ 2 ^ 32 := by decide
    exact (Nat.min_eq_right (Nat.le_trans largest above)).symm

theorem factor_le_succ (retry : Nat) : factor retry ≤ factor (retry + 1) := by
  have doubled : 2 ^ (retry - 1) ≤ 2 ^ (retry + 1 - 1) :=
    Nat.pow_le_pow_right (by decide) (by omega)
  rw [factor_eq_min, factor_eq_min]
  omega

variable (perSecond : Nat) (s : Settings) (retry : Nat)

theorem backoffIn_le_max : s.backoffIn perSecond retry ≤ s.maxBackoff := by
  unfold backoffIn
  dsimp only
  split
  · exact Nat.le_refl _
  · exact Nat.min_le_right _ _

theorem backoffIn_le_succ : s.backoffIn perSecond retry ≤ s.backoffIn perSecond (retry + 1) := by
  have grows : s.initialBackoff * factor retry ≤ s.initialBackoff * factor (retry + 1) :=
    Nat.mul_le_mul_left _ (factor_le_succ retry)
  unfold backoffIn
  dsimp only
  split <;> split <;> omega

variable {perSecond} {s}

/-- A cap that can be represented hides that longer times cannot. -/
theorem backoffIn_eq_min (counted : s.maxBackoff ≤ longestPause perSecond) :
    s.backoffIn perSecond retry = min (s.initialBackoff * factor retry) s.maxBackoff := by
  unfold backoffIn
  dsimp only
  split <;> omega

/-- With a cap within reach of the largest factor, that factor is never felt. -/
theorem min_factor_eq (reach : s.maxBackoff ≤ s.initialBackoff * largestFactor) :
    min (s.initialBackoff * factor retry) s.maxBackoff =
      min (s.initialBackoff * 2 ^ (retry - 1)) s.maxBackoff := by
  rw [factor_eq_min]
  rcases Nat.le_total (2 ^ (retry - 1)) largestFactor with short | long
  · rw [Nat.min_eq_left short]
  · have above : s.initialBackoff * largestFactor ≤ s.initialBackoff * 2 ^ (retry - 1) :=
      Nat.mul_le_mul_left _ long
    rw [Nat.min_eq_right long]
    omega

/-- However finely times are counted, the pauses never shrink and never pass the cap, and as
long as the cap is within reach of the largest factor they are the first one doubled with each
retry, up to the cap. A cap out of its reach is not met: the pauses stay at the largest
multiple of the first. -/
theorem backoff_doubles_to_cap (perSecond : Nat) (s : Settings) (retry : Nat) :
    s.backoffIn perSecond retry ≤ s.maxBackoff ∧
      s.backoffIn perSecond retry ≤ s.backoffIn perSecond (retry + 1) ∧
      (s.maxBackoff ≤ longestPause perSecond →
        (s.maxBackoff ≤ s.initialBackoff * (2 ^ 32 - 1) →
          s.backoffIn perSecond retry =
            min (s.initialBackoff * 2 ^ (retry - 1)) s.maxBackoff) ∧
        (s.initialBackoff * (2 ^ 32 - 1) < s.maxBackoff → 33 ≤ retry →
          s.backoffIn perSecond retry = s.initialBackoff * (2 ^ 32 - 1))) := by
  refine ⟨backoffIn_le_max perSecond s retry, backoffIn_le_succ perSecond s retry,
    fun counted => ⟨fun reach => ?_, fun short late => ?_⟩⟩
  · rw [backoffIn_eq_min retry counted, min_factor_eq retry reach]
  · have largest : factor retry = 2 ^ 32 - 1 := if_neg (by omega)
    rw [backoffIn_eq_min retry counted, largest]
    exact Nat.min_eq_left (Nat.le_of_lt short)

/-- Counted in nanoseconds, and the cap just within reach: the last pause below it is the
32nd, and no later one is cut short by the factor. -/
theorem fine_pauses :
    let s : Settings := { initialBackoff := 3, maxBackoff := 3 * (2 ^ 32 - 1) }
    (s.maxBackoff ≤ longestPause 1000000000 ∧ s.maxBackoff ≤ s.initialBackoff * (2 ^ 32 - 1)) ∧
      s.backoffIn 1000000000 32 = 3 * 2 ^ 31 ∧ s.backoffIn 1000000000 33 = 3 * (2 ^ 32 - 1) :=
  ⟨⟨by decide, by decide⟩,
    ((backoff_doubles_to_cap 1000000000 _ 32).2.2 (by decide)).1 (by decide),
    ((backoff_doubles_to_cap 1000000000 _ 33).2.2 (by decide)).1 (by decide)⟩

end Headroom.Retry.Settings
