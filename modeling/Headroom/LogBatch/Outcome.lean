import Headroom.Averages
import Headroom.Decimal.Shortest
import Headroom.LogBatch.Envelope

/-!
What handling one log batch comes to.
-/
namespace Headroom.LogBatch

inductive Outcome where
  /-- The metrics backend took both datapoints. -/
  | published (averages : Averages)
  /-- The batch was a control message. -/
  | skipped
  /-- The batch could not be decoded, or had no valid sample. -/
  | rejected (error : Error)
  /-- The metrics backend did not take the datapoints. -/
  | publishFailed (averages : Averages) (error : Error)
  deriving DecidableEq, Repr

namespace Outcome

def label : Outcome → String
  | published _ => "published"
  | skipped => "skipped"
  | rejected _ => "rejected"
  | publishFailed _ _ => "publish_failed"

def isSuccess : Outcome → Bool
  | published _ | skipped => true
  | rejected _ | publishFailed _ _ => false

def summary : Outcome → String
  | published a =>
    "Successfully processed " ++ toString (a.samples + a.skipped) ++ " log events (cpu avg " ++
      Decimal.plain a.cpu.value ++ ", memory avg " ++ Decimal.plain a.memory.value ++ ", " ++
      toString a.skipped ++ " skipped)"
  | skipped => "Control message acknowledged, nothing to publish"
  | rejected error => "Batch rejected: " ++ error.message
  | publishFailed _ error => "Batch aggregated but not published: " ++ error.message

/-- How many invalid records the batch had, as far as it was read. -/
def invalidRecords : Outcome → Nat
  | published a | publishFailed a _ => a.skipped
  | rejected (.emptyBatch count) => count
  | skipped | rejected _ => 0

end Outcome
end Headroom.LogBatch
