import TriggerWatch.Json.Parser
import TriggerWatch.Key
import TriggerWatch.Reading
import TriggerWatch.Rule

/-!
# Submissions

A submission carries a reading of a device together with the rule to be judged after it. What the
rule needs may be missing or out of range, so that a faulty submission can still be read, refused
with a reason and entered in the trail.

## Main definitions

- `Submission` — a reading and the terms of a rule, unchecked
- `Submission.checkReading` — the checks of the reading
- `Submission.rule` — the checked rule
- `Submission.time` — the time of the reading
- `Submission.toJson`, `Submission.ofTree?`, `Submission.ofText?` — the written form
-/

namespace TriggerWatch

/-- A reading and the terms of a rule, unchecked. -/
structure Submission where
  device : String
  /-- The attribute it reports. -/
  attr : String
  value : Datum
  /-- The timestamp of the reading, as written. -/
  timestamp : Option String
  /-- The trigger of the rule. -/
  trigger : String
  /-- The attribute the rule looks at. -/
  triggerAttr : String
  /-- The value to agree with. -/
  equals : Option Datum
  /-- The limit to exceed. -/
  above : Option Float
  /-- The limit to stay below. -/
  below : Option Float
  /-- The least share of readings that meet the condition. -/
  certainty : Option Float
  /-- The length of the window in seconds. -/
  period : Option Int
  /-- The beacon whose class replaces the reported value. -/
  beacon : Option String

namespace Submission

/-- Refuse with a flaw if a test is met. -/
def refuseIf (test : Bool) (flaw : Flaw) : Except Flaw Unit := if test then .error flaw else .ok ()

/-- Whether a limit is given and is no finite number. -/
def isUnbounded (limit : Option Float) : Bool := limit.any fun x => !x.isFinite

/-- Whether a number is a share: not undefined, and from 0 to 1. -/
def isShare (x : Float) : Bool := decide (0.0 ≤ x) && decide (x ≤ 1.0)

/-- Check what identifies the reading. -/
def checkReading (s : Submission) : Except Flaw Unit := do
  refuseIf (Text.isAllBlank s.device) .blankDevice
  refuseIf (Key.hasSeparator s.device) .separatorInDevice
  refuseIf (Text.isAllBlank s.attr) .blankAttribute

/-- The condition of the rule, unchecked. -/
def condition (s : Submission) : Condition :=
  { equals := s.equals, above := s.above, below := s.below }

/-- The share that the rule asks for, checked. -/
def checkedCertainty (s : Submission) : Except Flaw Float :=
  match s.certainty with
  | none => .error .missingCertainty
  | some x => if isShare x then .ok x else .error (.certaintyOutOfRange x)

/-- The length of the window, checked. -/
def checkedPeriod (s : Submission) : Except Flaw Span :=
  match s.period with
  | none => .error .missingPeriod
  | some n =>
    if n < 0 then .error (.negativePeriod n)
    else
      match Span.ofSeconds? n with
      | some d => .ok d
      | none => .error (.periodOutOfRange n)

/-- The checked rule. The first flaw in the order of the checks is reported. -/
def rule (s : Submission) : Except Flaw Rule := do
  refuseIf (Text.isAllBlank s.trigger) .blankTrigger
  refuseIf (Key.hasSeparator s.trigger) .separatorInTrigger
  refuseIf (Text.isAllBlank s.triggerAttr) .blankTriggerAttribute
  refuseIf s.condition.isEmpty .noCondition
  refuseIf (isUnbounded s.above) .upperNotFinite
  refuseIf (isUnbounded s.below) .lowerNotFinite
  let certainty ← s.checkedCertainty
  let period ← s.checkedPeriod
  return {
    trigger := s.trigger
    attr := s.triggerAttr
    condition := s.condition
    certainty
    period }

/-- The time of the reading, which is `fallback` if no timestamp is given. -/
def time (s : Submission) (fallback : Instant) : Except Flaw Instant :=
  match s.timestamp with
  | none => .ok fallback
  | some raw =>
    match Instant.ofText? raw with
    | some t => .ok t
    | none => .error (.unreadableTimestamp raw)

/-- The names of the fields of a written submission. -/
def fieldNames : List String := [
  "device", "attribute", "value", "timestamp", "trigger_name", "trigger_attribute",
  "trigger_value", "trigger_upper_limit", "trigger_lower_limit", "trigger_certainty",
  "trigger_period", "value_map_beacon_to_class"]

/-- A member that is written only if it has a value. -/
def optionalMember {α : Type} (name : String) (f : α → Json) (value : Option α) :
    List (String × Json) :=
  match value with
  | some a => [(name, f a)]
  | none => []

/-- The written form of a submission; what is missing is left out. -/
def toJson (s : Submission) : Json := Json.ofPairs <|
  [("device", .string s.device), ("attribute", .string s.attr), ("value", s.value.toJson)] ++
  optionalMember "timestamp" .string s.timestamp ++
  [("trigger_name", .string s.trigger), ("trigger_attribute", .string s.triggerAttr)] ++
  optionalMember "trigger_value" Datum.toJson s.equals ++
  optionalMember "trigger_upper_limit" Json.ofFloat s.above ++
  optionalMember "trigger_lower_limit" Json.ofFloat s.below ++
  optionalMember "trigger_certainty" Json.ofFloat s.certainty ++
  optionalMember "trigger_period" (fun n => .number (.int n)) s.period ++
  optionalMember "value_map_beacon_to_class" .string s.beacon

/-- Read a field of a submission that may be missing or `null`. -/
def optionalField {α : Type} (r : Json.Record) (name : String) (read? : Json.Tree → Option α) :
    Option (Option α) :=
  r.withDefault name none (Json.Record.orNull? read?)

/-- Read a signed number of 64 bits. -/
def signed64? : Json.Tree → Option Int :=
  Json.Tree.integer? (-0x8000000000000000) 0x7fffffffffffffff

/-- Read a submission. -/
def ofTree? (t : Json.Tree) : Option Submission := do
  let r ← t.record? fieldNames
  let device ← r.required "device" Json.Tree.text?
  let attr ← r.required "attribute" Json.Tree.text?
  let value ← r.required "value" Datum.ofTree?
  let timestamp ← optionalField r "timestamp" Json.Tree.text?
  let trigger ← r.required "trigger_name" Json.Tree.text?
  let triggerAttr ← r.required "trigger_attribute" Json.Tree.text?
  let equals ← optionalField r "trigger_value" Datum.ofTree?
  let above ← optionalField r "trigger_upper_limit" Json.Tree.float?
  let below ← optionalField r "trigger_lower_limit" Json.Tree.float?
  let certainty ← optionalField r "trigger_certainty" Json.Tree.float?
  let period ← optionalField r "trigger_period" signed64?
  let beacon ← optionalField r "value_map_beacon_to_class" Json.Tree.text?
  return {
    device, attr, value, timestamp, trigger, triggerAttr, equals, above, below,
    certainty, period, beacon }

/-- Read a submission from the text of a message; unreadable messages are discarded. -/
def ofText? (text : String) : Option Submission := (Json.Tree.ofText? text).bind ofTree?

end Submission

end TriggerWatch
