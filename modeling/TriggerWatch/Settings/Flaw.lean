/-!
# Flaws of settings

## Main definitions

- `Settings.Flaw` — what can be wrong with a setting
- `Settings.Flaw.message` — the wording of a flaw
-/

namespace TriggerWatch.Settings

/-- Why a text is no value of the kind that a setting needs. -/
inductive Misreading where
  /-- Nothing stands where a number is needed. -/
  | emptyNumber
  | invalidDigit
  | tooLarge
  /-- The text is neither `true` nor `false`. -/
  | noTruthValue
deriving DecidableEq, Repr

/-- The wording of a misreading. -/
def Misreading.message : Misreading → String
  | .emptyNumber => "cannot parse integer from empty string"
  | .invalidDigit => "invalid digit found in string"
  | .tooLarge => "number too large to fit in target type"
  | .noTruthValue => "provided string was not `true` or `false`"

/-- What can be wrong with a setting. -/
inductive Flaw where
  | unknownBackend (name : String)
  | missingPassword
  /-- A variable has no value of the kind it needs. -/
  | misread (variableName : String) (cause : Misreading)
  /-- An entry of a table has no equals sign. -/
  | entryWithoutEquals (variableName entry : String)
  /-- An entry of a table has nothing on one side of the equals sign. -/
  | entryWithEmptySide (variableName entry : String)
deriving DecidableEq, Repr

/-- The wording of a flaw. -/
def Flaw.message : Flaw → String
  | .unknownBackend name =>
    s!"Invalid STATE_STORE_BACKEND: {name} (expected postgres, redis or aws)"
  | .missingPassword => "DB_PASSWORD must be set"
  | .misread variableName cause => s!"Invalid {variableName}: {cause.message}"
  | .entryWithoutEquals variableName entry => s!"Invalid {variableName} entry: {entry}"
  | .entryWithEmptySide variableName entry =>
    s!"Invalid {variableName} entry: {entry} (empty key or value)"

end TriggerWatch.Settings
