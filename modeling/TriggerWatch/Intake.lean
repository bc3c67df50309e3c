import TriggerWatch.Store.Redis
import TriggerWatch.Submission

/-!
# Intake

Producers put submissions into a list at its left end, and the service takes them at its right end,
so that they are handled in the order of their arrival. A submission is removed before it is read
and is not put back.

## Main definitions

- `Intake` — a queue of submissions
- `Intake.within` — the same queue as a part of other stores
- `Redis.intake` — the queue in a list of a Redis server
-/

namespace TriggerWatch

/-- The calls of a queue of submissions. -/
structure Intake (σ : Type) where
  /-- Take the next submission, waiting some seconds for one. A message that is no submission is
  discarded. -/
  take : Nat → Action σ StoreFailure (Option Submission)
  /-- The number of waiting messages. -/
  length : Action σ StoreFailure Nat

/-- The queue in a part of the stores. -/
def Intake.within {σ τ : Type} (get : σ → τ) (set : τ → σ → σ) (intake : Intake τ) : Intake σ where
  take seconds := (intake.take seconds).focus get set
  length := intake.length.focus get set

/-- The queue in a list of a Redis server. -/
def Redis.intake (queue : String) : Intake Redis where
  take seconds := do
    let message ← Redis.popRight queue seconds
    return message.bind Submission.ofText?
  length := Redis.length queue

end TriggerWatch
