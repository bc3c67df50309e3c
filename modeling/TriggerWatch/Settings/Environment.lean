import TriggerWatch.Settings.Basic
import TriggerWatch.Settings.Table

/-!
# Settings from variables

Every setting has a variable and, the password of the database apart, a default. The variables are
read in a fixed order, and the first flaw is reported.

## Main definitions

- `Settings.readNumber`, `Settings.readTruth` — the values of variables
- `Settings.ofEnvironment` — the settings of an environment
-/

namespace TriggerWatch.Settings

/-- The variables that are set. -/
abbrev Environment := Dict String

/-- Read digits on top of a number already read. The first fault counts, and a character that is no
digit is a worse fault than a number that has become too large at it. -/
def readDigits (limit : Nat) : List Char → Nat → Except Misreading Nat
  | [], n => .ok n
  | c :: rest, n =>
    if !c.isDigit then .error .invalidDigit
    else
      let next := 10 * n + (c.toNat - '0'.toNat)
      if limit < next then .error .tooLarge else readDigits limit rest next

/-- Read a number from zero to a limit; a plus sign may stand in front of it. -/
def readNumber (limit : Nat) (text : List Char) : Except Misreading Nat :=
  match text with
  | [] => .error .emptyNumber
  | ['+'] => .error .invalidDigit
  | '+' :: digits => readDigits limit digits 0
  | digits => readDigits limit digits 0

/-- Read a truth value. -/
def readTruth (text : List Char) : Except Misreading Bool :=
  if text = ['t', 'r', 'u', 'e'] then .ok true
  else if text = ['f', 'a', 'l', 's', 'e'] then .ok false
  else .error .noTruthValue

/-- The value of a variable, or a default if it is not set. Blanks around the value do not
matter. -/
def valueOr {α : Type} (read : List Char → Except Misreading α) (env : Environment)
    (variableName : String) (default : α) : Except Flaw α :=
  match Dict.get? env variableName with
  | none => .ok default
  | some text =>
    match read (Text.trim text.toList) with
    | .ok value => .ok value
    | .error cause => .error (.misread variableName cause)

/-- A number of at most 16 bits. -/
def numberOr16 := valueOr (readNumber 0xffff)

/-- A number of at most 32 bits. -/
def numberOr32 := valueOr (readNumber 0xffffffff)

/-- A number of at most 64 bits. -/
def numberOr64 := valueOr (readNumber 0xffffffffffffffff)

/-- The text of a variable, or a default if it is not set. -/
def textOr (env : Environment) (variableName default : String) : String :=
  (Dict.get? env variableName).getD default

/-- The text of a variable that is set and not empty. -/
def filledText? (env : Environment) (variableName : String) : Option String :=
  (Dict.get? env variableName).filter fun text => !text.isEmpty

/-- The table of a variable, or a default if it is not set. -/
def tableOr (env : Environment) (variableName : String) (default : Dict String) :
    Except Flaw (Dict String) :=
  match Dict.get? env variableName with
  | none => .ok default
  | some text => readTable variableName text

/-- The settings of the database. -/
def databaseOf (env : Environment) : Except Flaw Database := do
  let port ← numberOr16 env "DB_PORT" 5432
  let password ← match Dict.get? env "DB_PASSWORD" with
    | some password => .ok password
    | none => .error .missingPassword
  let maxConnections ← numberOr32 env "DB_MAX_CONNECTIONS" 10
  let minConnections ← numberOr32 env "DB_MIN_CONNECTIONS" 1
  let acquireTimeout ← numberOr64 env "DB_ACQUIRE_TIMEOUT" 5
  return {
    host := textOr env "DB_HOST" "localhost"
    port
    name := textOr env "DB_NAME" "fuzzy_trigger"
    user := textOr env "DB_USER" "postgres"
    password, maxConnections, minConnections, acquireTimeout
    sslMode := textOr env "DB_SSL_MODE" "prefer" }

/-- The settings of evaluations. -/
def evaluationOf (env : Environment) : Except Flaw Evaluation := do
  let standard := Evaluation.default
  let retention ← numberOr64 env "EVENT_RETENTION_SECS" standard.retention
  let minCooldown ← numberOr64 env "MIN_DEBOUNCE_SECS" standard.minCooldown
  let trailCapacity ← numberOr64 env "AUDIT_CAPACITY" standard.trailCapacity
  let storeTimeout ← numberOr64 env "STORE_TIMEOUT_MS" standard.storeTimeout
  let inTurn ← valueOr readTruth env "SERIALIZE_PER_DEVICE" standard.inTurn
  let beacons ← tableOr env "BEACON_CLASS_MAP" standard.beacons
  return { retention, minCooldown, trailCapacity, storeTimeout, inTurn, beacons }

/-- The settings of chat messages. -/
def noticesOf (env : Environment) : Except Flaw Notices := do
  let standard := Notices.default
  let overrides ← tableOr env "CHAT_CHANNEL_OVERRIDES" standard.routing.overrides
  let timeout ← numberOr64 env "CHAT_TIMEOUT_SECS" standard.timeout
  let defaultChannel := textOr env "CHAT_DEFAULT_CHANNEL" standard.routing.defaultChannel
  return {
    webhook := filledText? env "CHAT_WEBHOOK_URL"
    routing := { defaultChannel, overrides }
    timeout }

/-- The settings of the queue. -/
def intakeOf (env : Environment) : Except Flaw Intake := do
  let standard := Intake.default
  let pollTimeout ← numberOr64 env "REQUEST_POLL_TIMEOUT_SECS" standard.pollTimeout
  return {
    queue := textOr env "REQUEST_QUEUE" standard.queue
    pollTimeout
    keyPrefix := textOr env "BLOB_KEY_PREFIX" standard.keyPrefix
    endpoint := filledText? env "AWS_IOT_ENDPOINT" }

/-- The store of reported state. The variables of the database are looked at only where the state is
kept in one. -/
def stateStoreOf (env : Environment) : Except Flaw StateStore := do
  match ← Backend.ofText (textOr env "STATE_STORE_BACKEND" "postgres") with
  | .postgres => (databaseOf env).map .postgres
  | .redis => return .redis
  | .aws => return .aws

/-- The settings of an environment. -/
def ofEnvironment (env : Environment) : Except Flaw Settings := do
  let stateStore ← stateStoreOf env
  let port ← numberOr16 env "REDIS_PORT" 6379
  let evaluation ← evaluationOf env
  let notices ← noticesOf env
  let intake ← intakeOf env
  return {
    redis := {
      host := textOr env "REDIS_HOST" "localhost"
      port
      password := Dict.get? env "REDIS_PASSWORD"
      url := Dict.get? env "REDIS_URL" }
    stateStore, evaluation, notices, intake }

end TriggerWatch.Settings
