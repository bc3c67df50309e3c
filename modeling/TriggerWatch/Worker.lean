import TriggerWatch.Evaluation
import TriggerWatch.Intake

/-!
# The worker

The worker takes submissions one at a time and evaluates each to its end before it takes the next.
A submission that cannot be evaluated is counted and does not stop the worker. Where the queue
fails, the worker waits for a second.

## Main definitions

- `Worker.Delivery` — what the queue answers
- `Worker.Stats` — what became of the submissions
- `Worker.handle` — deal with one answer of the queue
- `Worker.run` — deal with a list of answers
- `Worker.serve` — take from a queue a number of times
- `Worker.work` — ask for the length of the queue and take from it
-/

namespace TriggerWatch.Worker

/-- What the queue answers. -/
inductive Delivery where
  | submission (s : Submission)
  /-- No submission, or a message that is none. -/
  | nothing
  | failure (cause : StoreFailure)

/-- The delivery of the answer of a queue. -/
def Delivery.ofAnswer : Except StoreFailure (Option Submission) → Delivery
  | .ok (some s) => .submission s
  | .ok none => .nothing
  | .error cause => .failure cause

/-- What became of the submissions. -/
structure Stats where
  /-- Submissions with an outcome. -/
  evaluated : Nat
  /-- Submissions that met a failing store. -/
  failed : Nat
  /-- Submissions that were refused. -/
  rejected : Nat
deriving DecidableEq, Repr

/-- No submissions yet. -/
def Stats.none : Stats := ⟨0, 0, 0⟩

/-- The stats with one more evaluation. -/
def Stats.count (stats : Stats) (result : Except EvaluationFailure Outcome) : Stats :=
  match result with
  | .ok _ => { stats with evaluated := stats.evaluated + 1 }
  | .error failure =>
    if failure.isRejection then { stats with rejected := stats.rejected + 1 }
    else { stats with failed := stats.failed + 1 }

/-- The milliseconds to wait after a failure of the queue. -/
def backoff : Nat := 1000

variable {σ ε : Type} (e : Evaluator σ)

/-- Deal with one answer of the queue. -/
def handle (clock : ClockReadings) (delivery : Delivery) (stats : Stats) : Action σ ε Stats :=
  match delivery with
  | .submission s => do
    let result : Except EvaluationFailure Outcome ← Action.attempt (e.evaluate s clock)
    return stats.count result
  | .nothing => return stats
  | .failure _ => do
    Action.wait backoff
    return stats

/-- Deal with the answers of the queue one after the other. The wall clock is read anew for each. -/
def run (clock : Nat → ClockReadings) (stats : Stats) : List Delivery → Action σ ε Stats
  | [] => return stats
  | delivery :: rest => do
    let stats ← handle e (clock 0) delivery stats
    run (fun n => clock (n + 1)) stats rest

/-- Take from a queue a number of times and deal with each answer before the next is taken. The wall
clock is read anew for each. -/
def serve (intake : Intake σ) (seconds : Nat) (clock : Nat → ClockReadings) (stats : Stats) :
    Nat → Action σ ε Stats
  | 0 => return stats
  | times + 1 => do
    let answer : Except StoreFailure (Option Submission) ← Action.attempt (intake.take seconds)
    let stats ← handle e (clock 0) (Delivery.ofAnswer answer) stats
    serve intake seconds (fun n => clock (n + 1)) stats times

/-- Ask for the length of the queue once, which need not succeed, and take from the queue a number
of times. -/
def work (intake : Intake σ) (seconds : Nat) (clock : Nat → ClockReadings) (times : Nat) :
    Action σ ε Stats := do
  let _ : Except StoreFailure Nat ← Action.attempt intake.length
  serve e intake seconds clock Stats.none times

end TriggerWatch.Worker
