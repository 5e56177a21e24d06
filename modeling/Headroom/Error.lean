/-!
The ways in which an operation on a collaborator, a batch or a request fails.
-/
namespace Headroom

/-- A failure by its cause; the text says what it was about. -/
inductive Error where
  /-- The transport envelope of a log batch is malformed. -/
  | decode (detail : String)
  /-- No record of a batch was a valid sample. -/
  | emptyBatch (skipped : Nat)
  /-- The metrics backend did not take the datapoints. -/
  | publish (detail : String)
  | notFound (detail : String)
  /-- A candidate or request is invalid; trying again cannot help. -/
  | validation (detail : String)
  /-- An expected state was no longer the current one. -/
  | conflict (detail : String)
  /-- The collaborator was slow or unreachable; trying again may help. -/
  | transient (detail : String)
  deriving DecidableEq, Repr, Inhabited

namespace Error

/-- The whole message. -/
def message : Error → String
  | decode detail => "failed to decode log batch: " ++ detail
  | emptyBatch skipped =>
    "batch contained no valid samples (" ++ toString skipped ++ " records skipped)"
  | publish detail => "failed to publish metrics: " ++ detail
  | notFound detail => "not found: " ++ detail
  | validation detail => "validation failed: " ++ detail
  | conflict detail => "conflict: " ++ detail
  | transient detail => "transient failure: " ++ detail

/-- The label used in logs. -/
def kind : Error → String
  | decode _ => "decode"
  | emptyBatch _ => "empty_batch"
  | publish _ => "publish"
  | notFound _ => "not_found"
  | validation _ => "validation"
  | conflict _ => "conflict"
  | transient _ => "transient"

/-- Whether the same call may be tried again. -/
def isTransient : Error → Bool
  | transient _ => true
  | _ => false

end Error

/-- Two steps come out well if both do. -/
theorem bind_eq_ok_iff {ε α β : Type} {f : α → Except ε β} {x : Except ε α} {b : β} :
    (x >>= f) = .ok b ↔ ∃ a, x = .ok a ∧ f a = .ok b := by
  cases x <;> simp [bind, Except.bind]

end Headroom
