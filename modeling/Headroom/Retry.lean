import Headroom.Error

/-!
Calling again after a transient failure. Every call has a time budget, and the
pause before each further attempt is twice the one before, up to a cap. Times are
in milliseconds.
-/
namespace Headroom.Retry

structure Settings where
  /-- Attempts in all, with the first; zero counts as one. -/
  maxAttempts : Nat := 4
  /-- The pause before the second attempt. -/
  initialBackoff : Nat := 200
  /-- The longest pause. -/
  maxBackoff : Nat := 5000
  /-- The time that one attempt may take. -/
  callTimeout : Nat := 10000
  deriving DecidableEq, Repr, Inhabited

namespace Settings

def attempts (s : Settings) : Nat := max s.maxAttempts 1

/-- The largest factor by which the first pause is multiplied. -/
def largestFactor : Nat := UInt32.size - 1

/-- The longest time that can be represented, with a second in so many parts: 64 bits of
seconds. -/
def longestPause (perSecond : Nat) : Nat := UInt64.size * perSecond - 1

/-- The factor before the given retry, counted from one: twice the one before. -/
def factor (retry : Nat) : Nat :=
  if retry - 1 < 32 then Nat.pow 2 (retry - 1) else largestFactor

/-- The pause before the given retry, where times are counted in parts of a second. -/
def backoffIn (perSecond : Nat) (s : Settings) (retry : Nat) : Nat :=
  let product := s.initialBackoff * factor retry
  if longestPause perSecond < product then s.maxBackoff else min product s.maxBackoff

/-- The pause before the given retry, counted from one. -/
def backoff (s : Settings) (retry : Nat) : Nat := s.backoffIn 1000 retry

/-- The failure of a call that took too long. -/
def timeout (s : Settings) (operation : String) : Error :=
  .transient (operation ++ " timed out after " ++ toString s.callTimeout ++ "ms")

/-- Whether the given attempt is followed by another when it fails so. -/
def triesAgain (s : Settings) (attempt : Nat) (failure : Error) : Bool :=
  failure.isTransient && attempt < s.attempts

end Settings

/-- How one attempt goes by itself: how long it takes and what comes of it. -/
structure Response (α : Type) where
  delay : Nat := 0
  result : Except Error α

/-- What an attempt comes to under the time budget. -/
def Settings.outcome {α : Type} (s : Settings) (operation : String) (r : Response α) :
    Except Error α :=
  if r.delay ≤ s.callTimeout then r.result else .error (s.timeout operation)

/-- How long an attempt lasts under the time budget. -/
def Settings.duration {α : Type} (s : Settings) (r : Response α) : Nat :=
  min r.delay s.callTimeout

/-- A finished run of attempts. -/
structure Trace (α : Type) where
  result : Except Error α
  /-- When each attempt began. -/
  starts : List Nat
  /-- When the last attempt ended. -/
  finish : Nat
  /-- How many attempts were repeated: the counter of retries grows by as many. -/
  retries : Nat

/-- Attempts from number `attempt` on, beginning at `now`; `left` more may follow it. -/
def Settings.runFrom {α : Type} (s : Settings) (operation : String) (respond : Nat → Response α)
    (attempt now : Nat) : (left : Nat) → Trace α
  | 0 =>
    let response := respond attempt
    ⟨s.outcome operation response, [now], now + s.duration response, 0⟩
  | left + 1 =>
    let response := respond attempt
    let finish := now + s.duration response
    match s.outcome operation response with
    | .error (.transient _) =>
      let later := s.runFrom operation respond (attempt + 1) (finish + s.backoff attempt) left
      { later with starts := now :: later.starts, retries := later.retries + 1 }
    | result => ⟨result, [now], finish, 0⟩

/-- Call until it succeeds, fails for good, or the attempts are used up. The n-th
attempt gets the n-th response, counted from one. -/
def Settings.run {α : Type} (s : Settings) (operation : String) (respond : Nat → Response α) :
    Trace α :=
  s.runFrom operation respond 1 0 (s.attempts - 1)

end Headroom.Retry
