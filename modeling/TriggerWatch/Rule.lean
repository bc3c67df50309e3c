import TriggerWatch.Condition
import TriggerWatch.Time.Instant

/-!
# Rules

A rule watches one attribute of a device and names the trigger that fires when the condition holds
for a large enough share of the recent readings.

## Main definitions

- `Rule` — a checked rule
- `Flaw` — what can be wrong with a submitted reading or rule
- `Flaw.message` — the wording of a flaw
-/

namespace TriggerWatch

/-- A checked rule. -/
structure Rule where
  /-- The reported attribute that is written when the rule fires. -/
  trigger : String
  /-- The attribute the rule looks at. -/
  attr : String
  /-- What a reading has to meet. -/
  condition : Condition
  /-- The least share of readings that meet the condition, from 0 to 1. -/
  certainty : Float
  /-- The length of the window. -/
  period : Span

/-- What can be wrong with a submitted reading or rule. -/
inductive Flaw where
  | blankDevice
  /-- The name of the device contains the separator of keys. -/
  | separatorInDevice
  /-- The attribute of the reading has no name. -/
  | blankAttribute
  | unreadableTimestamp (raw : String)
  | blankTrigger
  /-- The name of the trigger contains the separator of keys. -/
  | separatorInTrigger
  /-- The attribute of the rule has no name. -/
  | blankTriggerAttribute
  | noCondition
  /-- The upper limit is infinite or undefined. -/
  | upperNotFinite
  /-- The lower limit is infinite or undefined. -/
  | lowerNotFinite
  | missingCertainty
  /-- The certainty is no share. -/
  | certaintyOutOfRange (x : Float)
  | missingPeriod
  | negativePeriod (seconds : Int)
  /-- The period is too long for a span. -/
  | periodOutOfRange (seconds : Int)

/-- The wording of a flaw. -/
def Flaw.message : Flaw → String
  | .blankDevice => "device must not be empty"
  | .separatorInDevice => "device must not contain '/'"
  | .blankAttribute => "attribute must not be empty"
  | .unreadableTimestamp raw => "invalid timestamp: " ++ raw
  | .blankTrigger => "trigger_name must not be empty"
  | .separatorInTrigger => "trigger_name must not contain '/'"
  | .blankTriggerAttribute => "trigger_attribute must not be empty"
  | .noCondition =>
    "no comparison supplied: set trigger_value, trigger_upper_limit or trigger_lower_limit"
  | .upperNotFinite => "trigger_upper_limit must be a finite number"
  | .lowerNotFinite => "trigger_lower_limit must be a finite number"
  | .missingCertainty => "trigger_certainty is required"
  | .certaintyOutOfRange x =>
    "trigger_certainty must be between 0 and 1, got " ++ Decimal.Layout.message.render x
  | .missingPeriod => "trigger_period is required"
  | .negativePeriod n => "trigger_period must not be negative, got " ++ toString n
  | .periodOutOfRange n => "trigger_period out of range, got " ++ toString n

end TriggerWatch
