/-!
# Failures

What can go wrong outside a rule: a store call, an evaluation as a whole, the delivery of a
message, the start of the service.

## Main definitions

- `StoreFailure` — a failed store call
- `EvaluationFailure` — an evaluation without an outcome
- `DeliveryFailure` — a message that was not accepted
- `ServiceFailure` — a failure of the settings or of a connection
-/

namespace TriggerWatch

/-- The store calls that run under a deadline. -/
inductive StoreCall where
  | getDocument
  | putDocument
  /-- Merge attributes into the reported state. -/
  | updateState
  | getState
deriving DecidableEq, Repr

/-- The name of a store call in messages. -/
def StoreCall.name : StoreCall → String
  | .getDocument => "blob_get"
  | .putDocument => "blob_put"
  | .updateState => "state_update"
  | .getState => "state_get"

/-- The store call of a name. -/
def StoreCall.ofName? (name : String) : Option StoreCall :=
  [.getDocument, .putDocument, .updateState, .getState].find? fun call => call.name == name

/-- Why a store call failed. -/
inductive StoreFailure where
  /-- The Redis server refused a command or gave an unusable reply. -/
  | redis (detail : String)
  /-- The database refused a statement. -/
  | database (detail : String)
  /-- A stored document is no JSON text. -/
  | serialization (detail : String)
  /-- The call had not answered when its time was over. -/
  | timeout (call : StoreCall) (milliseconds : Nat)
  /-- Any other failure. -/
  | backend (detail : String)
deriving DecidableEq, Repr

/-- The wording of a store failure. -/
def StoreFailure.message : StoreFailure → String
  | .redis detail => "Redis error: " ++ detail
  | .database detail => "Database error: " ++ detail
  | .serialization detail => "Serialization error: " ++ detail
  | .timeout call milliseconds => s!"{call.name} timed out after {milliseconds}ms"
  | .backend detail => "Backend error: " ++ detail

/-- The parts of an evaluation that need a store. -/
inductive Step where
  /-- The reading joins the history. -/
  | history
  /-- The last fire is looked up and replaced. -/
  | cooldown
  /-- The reported state is read or written. -/
  | state
  /-- The outcome is entered in the trail, or the trail is read. -/
  | trail
deriving DecidableEq, Repr

/-- The name of a step in messages. -/
def Step.name : Step → String
  | .history => "event_log"
  | .cooldown => "debounce"
  | .state => "reported_state"
  | .trail => "audit_log"

/-- The step of a name. -/
def Step.ofName? (name : String) : Option Step :=
  [.history, .cooldown, .state, .trail].find? fun step => step.name == name

/-- Why an evaluation has no outcome. -/
inductive EvaluationFailure where
  /-- The rule of the submission has a flaw. -/
  | badRule (reason : String)
  /-- The reading of the submission has a flaw. -/
  | invalidReading (reason : String)
  | storeUnavailable (step : Step) (cause : StoreFailure)
deriving DecidableEq, Repr

namespace EvaluationFailure

/-- The wording of a failed evaluation. -/
def message : EvaluationFailure → String
  | .badRule reason => "Bad rule spec: " ++ reason
  | .invalidReading reason => "Invalid request: " ++ reason
  | .storeUnavailable step cause =>
    "Store unavailable during " ++ step.name ++ ": " ++ cause.message

/-- The label of a failed evaluation in the trail. -/
def label : EvaluationFailure → String
  | .badRule _ => "bad_rule_spec"
  | .invalidReading _ => "invalid_request"
  | .storeUnavailable _ _ => "store_unavailable"

/-- Whether the submission itself is at fault, so that trying again cannot help. -/
def isRejection : EvaluationFailure → Bool
  | .badRule _ => true
  | .invalidReading _ => true
  | .storeUnavailable _ _ => false

end EvaluationFailure

/-- Why a chat message was not delivered. -/
inductive DeliveryFailure where
  /-- The chat service answered with a status that means failure. -/
  | rejected (status : Nat) (body : String)
deriving DecidableEq, Repr

/-- The wording of a failed delivery. -/
def DeliveryFailure.message : DeliveryFailure → String
  | .rejected status body => s!"Webhook rejected message with status {status}: {body}"

/-- Why settings or a connection cannot be used. -/
inductive ServiceFailure where
  /-- A setting is missing or cannot be read. -/
  | settings (detail : String)
  /-- A submission has a flaw. -/
  | validation (detail : String)
  /-- A connection cannot be made. -/
  | internal (detail : String)
  /-- The database refused a statement or a connection. -/
  | database (detail : String)
  /-- The Redis server refused a command. -/
  | redis (detail : String)
deriving DecidableEq, Repr

/-- The wording of a failure of the service. -/
def ServiceFailure.message : ServiceFailure → String
  | .settings detail => "Configuration error: " ++ detail
  | .validation detail => "Validation error: " ++ detail
  | .internal detail => "Internal error: " ++ detail
  | .database detail => "Database error: " ++ detail
  | .redis detail => "Redis error: " ++ detail

end TriggerWatch
