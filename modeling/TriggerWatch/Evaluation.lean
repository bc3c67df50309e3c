import TriggerWatch.Cooldown
import TriggerWatch.Firing
import TriggerWatch.History
import TriggerWatch.Outcome
import TriggerWatch.Settings.Basic
import TriggerWatch.Submission
import TriggerWatch.Trail

/-!
# Evaluations

An evaluation takes one submission through all steps. The submission is checked before any store is
called. Its reading joins the history, and its rule is judged on what the history then holds. A
satisfied rule fires unless its trigger is cooling down. The end is entered in the trail, also where
the submission was refused or a store failed.

## Main definitions

- `Evaluator` — the stores and the settings of evaluations
- `Evaluator.ofSettings?` — an evaluator whose store calls have deadlines
- `Evaluator.accept` — the checks of a submission
- `Evaluator.judge` — the steps up to the outcome
- `Evaluator.enterTrail` — the entry of the end in the trail
- `Evaluator.evaluate` — one evaluation
-/

namespace TriggerWatch

/-- The wall clock during an evaluation. -/
structure ClockReadings where
  /-- The time at which the submission is taken up. -/
  received : Instant
  /-- The time at which its end is entered in the trail. -/
  recorded : Instant
deriving DecidableEq

/-- The stores and the settings of evaluations. -/
structure Evaluator (σ : Type) where
  /-- The store of histories, last fires and trails. -/
  documents : Documents σ
  /-- The store of reported state. -/
  shadows : Shadows σ
  /-- The way to people. -/
  notifier : Notifier σ
  /-- Records older than this leave the history. -/
  retention : Span
  /-- The least time between two fires of a trigger. -/
  minCooldown : Span
  /-- The number of entries kept in a trail. -/
  trailCapacity : Nat
  /-- The classes of beacons. -/
  beacons : BeaconTable

/-- A submission that passed the checks. -/
structure Accepted where
  rule : Rule
  /-- The reading that joins the history. -/
  reading : Reading
  /-- The time of the reading, at which the rule is judged. -/
  now : Instant

/-- The signed number with the same 64 bits. -/
def toSigned64 (n : Nat) : Int :=
  let low : Int := (n % 0x10000000000000000 : Nat)
  if low < 0x8000000000000000 then low else low - 0x10000000000000000

namespace Evaluator

variable {σ : Type}

/-- The evaluator of some settings. Every store call gets the deadline of the settings. The numbers
of seconds are taken as signed numbers; there is no evaluator if one is out of range for a span. -/
def ofSettings? (documents : Documents σ) (shadows : Shadows σ) (notifier : Notifier σ)
    (settings : Settings.Evaluation) : Option (Evaluator σ) := do
  let retention ← Span.ofSeconds? (toSigned64 settings.retention)
  let minCooldown ← Span.ofSeconds? (toSigned64 settings.minCooldown)
  return {
    documents := documents.timed settings.storeTimeout
    shadows := shadows.timed settings.storeTimeout
    notifier
    retention
    minCooldown
    trailCapacity := settings.trailCapacity
    beacons := settings.beacons }

variable (e : Evaluator σ)

/-- Check a submission: its reading, its rule, its beacon, and its timestamp, in this order. -/
def accept (s : Submission) (received : Instant) : Except EvaluationFailure Accepted := do
  s.checkReading.mapError fun flaw => .invalidReading flaw.message
  let rule ← s.rule.mapError fun flaw => .badRule flaw.message
  let value ← (e.beacons.resolve s.value s.beacon).mapError fun beacon =>
    .badRule ("unknown beacon in value_map_beacon_to_class: " ++ beacon)
  let now ← (s.time received).mapError fun flaw => .invalidReading flaw.message
  return { rule, reading := { device := s.device, attr := s.attr, value, timestamp := now }, now }

/-- Run the store calls of a step; a failure names the step. -/
def inStep {α : Type} (step : Step) (a : Action σ StoreFailure α) :
    Action σ EvaluationFailure α :=
  a.mapFailure (.storeUnavailable step)

/-- What a satisfied rule comes to: its trigger fires unless it is cooling down. -/
def settle (a : Accepted) (certainty : Float) : Action σ EvaluationFailure Outcome.Kind := do
  let device := a.reading.device
  let suppressed ← inStep .cooldown
    (Cooldown.suppresses e.documents e.minCooldown device a.rule.trigger a.rule.period a.now)
  if suppressed then
    return .suppressed
  inStep .state (Firing.fire e.shadows e.notifier device a.rule.trigger certainty a.now)
  return .fired

/-- What a verdict comes to. -/
def conclude (a : Accepted) : Verdict → Action σ EvaluationFailure Outcome.Kind
  | .pending => pure .pending
  | .below _ => pure .belowThreshold
  | .satisfied certainty => e.settle a certainty

/-- Take an accepted submission through all steps up to the outcome. -/
def judge (a : Accepted) : Action σ EvaluationFailure Outcome := do
  let records ← inStep .history
    (History.ingest e.documents e.retention a.reading.device a.reading a.now)
  let tally := a.rule.tally (Reading.ofRecords records) a.now
  let kind ← e.conclude a (a.rule.verdict tally)
  return Outcome.of kind a.rule.trigger tally

/-- The outcome of a submission, or why there is none. -/
def run (s : Submission) (received : Instant) : Action σ EvaluationFailure Outcome := do
  e.judge (← Action.ofExcept (e.accept s received))

/-- The entry of a result in the trail. -/
def entryOf (s : Submission) (result : Except EvaluationFailure Outcome) (recorded : Instant) :
    Trail.Entry :=
  match result with
  | .ok outcome => {
      request := s.toJson
      outcome := outcome.kind.name
      message := outcome.message
      recordedAt := recorded }
  | .error failure => {
      request := s.toJson
      outcome := failure.label
      message := failure.message
      recordedAt := recorded }

/-- Whether a submission names a trail: its device and its trigger can stand in a key. -/
def hasTrail (s : Submission) : Bool :=
  Key.isAddressable s.device && Key.isAddressable s.trigger

/-- The answer of an evaluation, given whether its result was entered in the trail. Where the entry
fails, that is the failure of an evaluation that had none; an earlier failure stays. -/
def answer (result : Except EvaluationFailure Outcome) (entered : Except StoreFailure Unit) :
    Except EvaluationFailure Outcome :=
  match result, entered with
  | .ok _, .error cause => .error (.storeUnavailable .trail cause)
  | result, _ => result

/-- Enter a result in the trail and answer with it. -/
def enterTrail (s : Submission) (result : Except EvaluationFailure Outcome) (recorded : Instant) :
    Action σ EvaluationFailure Outcome := do
  if hasTrail s then
    let entered : Except StoreFailure Unit ← Action.attempt
      (Trail.record e.documents e.trailCapacity s.device s.trigger (entryOf s result recorded))
    Action.ofExcept (answer result entered)
  else Action.ofExcept result

/-- Evaluate a submission. -/
def evaluate (s : Submission) (clock : ClockReadings) : Action σ EvaluationFailure Outcome := do
  let result : Except EvaluationFailure Outcome ← Action.attempt (e.run s clock.received)
  e.enterTrail s result clock.recorded

/-- The trail of a device and a trigger, the oldest entry first. -/
def trail (device trigger : String) : Action σ EvaluationFailure (List Trail.Entry) :=
  inStep .trail (Trail.recent e.documents device trigger)

/-- The reported state of a device. -/
def reported (device : String) : Action σ EvaluationFailure (Option (Dict Json)) :=
  inStep .state (e.shadows.get device)

end Evaluator

end TriggerWatch
