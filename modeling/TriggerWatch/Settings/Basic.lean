import TriggerWatch.BeaconTable
import TriggerWatch.Chat
import TriggerWatch.Settings.Flaw
import TriggerWatch.Text.Lowercase

/-!
# Settings

The service is set up by a few groups of settings. Each group but that of the database has values
that hold where nothing else is set.

## Main definitions

- `Settings` — all settings of the service
- `Settings.Backend` — the names of the stores of reported state
- `Settings.StateStore` — a store of reported state with what is needed to reach it
- `Settings.Database.url`, `Settings.Redis.connectionUrl` — the addresses of the two servers
-/

namespace TriggerWatch

namespace Settings

/-- Where the reported state is kept. -/
inductive Backend where
  /-- In a table of a database. -/
  | postgres
  /-- In a document beside the others. -/
  | redis
  /-- In the shadow service of a cloud. -/
  | aws
deriving DecidableEq, Repr

namespace Backend

/-- The name of a backend. -/
def name : Backend → String
  | .postgres => "postgres"
  | .redis => "redis"
  | .aws => "aws"

/-- The backend of a name; blanks around it and its case do not matter. -/
def ofText (text : String) : Except Flaw Backend :=
  let name := Text.lowercase (Text.trimmed text)
  if name = "postgres" || name = "postgresql" then .ok .postgres
  else if name = "redis" then .ok .redis
  else if name = "aws" || name = "aws-iot" then .ok .aws
  else .error (.unknownBackend name)

end Backend

/-- The settings of the database. -/
structure Database where
  /-- The host that the database runs on. -/
  host : String
  port : Nat
  name : String
  user : String
  password : String
  /-- The largest number of connections at a time. -/
  maxConnections : Nat
  /-- The number of connections that are kept open. -/
  minConnections : Nat
  /-- How many seconds a connection may take to become free. -/
  acquireTimeout : Nat
  /-- How the connection is protected. -/
  sslMode : String

/-- The store of reported state, with what is needed to reach it. -/
inductive StateStore where
  /-- A table of a database. -/
  | postgres (database : Database)
  /-- A document beside the others. -/
  | redis
  /-- The shadow service of a cloud. -/
  | aws

/-- The backend of a store of reported state. -/
def StateStore.backend : StateStore → Backend
  | .postgres _ => .postgres
  | .redis => .redis
  | .aws => .aws

/-- The database of a store of reported state that is kept in one. -/
def StateStore.database? : StateStore → Option Database
  | .postgres database => some database
  | _ => none

/-- The address of the database. -/
def Database.url (d : Database) : String :=
  s!"postgres://{d.user}:{d.password}@{d.host}:{d.port}/{d.name}?sslmode={d.sslMode}"

/-- The settings of the Redis server. -/
structure Redis where
  /-- The host that the server runs on. -/
  host : String
  port : Nat
  /-- The password, if one is needed. -/
  password : Option String
  /-- A complete address, which is used before the other settings. -/
  url : Option String

/-- The address of the Redis server. -/
def Redis.connectionUrl (r : Redis) : String :=
  match r.url, r.password with
  | some url, _ => url
  | none, some password => s!"redis://:{password}@{r.host}:{r.port}"
  | none, none => s!"redis://{r.host}:{r.port}"

/-- The settings of evaluations. -/
structure Evaluation where
  /-- Readings older than this many seconds leave the history. -/
  retention : Nat
  /-- The least number of seconds between two fires of a trigger. -/
  minCooldown : Nat
  /-- The number of entries kept in a trail. -/
  trailCapacity : Nat
  /-- The deadline of a store call in milliseconds. -/
  storeTimeout : Nat
  /-- Whether evaluations of one device wait for each other. -/
  inTurn : Bool
  beacons : BeaconTable

/-- The settings of evaluations where nothing else is set. -/
def Evaluation.default : Evaluation where
  retention := 300
  minCooldown := 30
  trailCapacity := 20
  storeTimeout := 5000
  inTurn := true
  beacons := Dict.ofList [("a123", "A"), ("a456", "B"), ("a789", "C")]

/-- The settings of chat messages. -/
structure Notices where
  /-- The address messages are posted to; without it they are only logged. -/
  webhook : Option String
  /-- How the channel of a device is chosen. -/
  routing : Chat.Routing
  /-- How many seconds a delivery may take. -/
  timeout : Nat

/-- The settings of chat messages where nothing else is set. -/
def Notices.default : Notices where
  webhook := none
  routing := { defaultChannel := "g88a", overrides := Dict.ofList [("g88", "g88a")] }
  timeout := 10

/-- The settings of the queue of submissions. -/
structure Intake where
  /-- The list that submissions are taken from. -/
  queue : String
  /-- How many seconds to wait for a submission. -/
  pollTimeout : Nat
  /-- What stands before the key of every document. -/
  keyPrefix : String
  /-- The address of the shadow service. -/
  endpoint : Option String

/-- The settings of the queue where nothing else is set. -/
def Intake.default : Intake where
  queue := "fuzzy_trigger:requests"
  pollTimeout := 5
  keyPrefix := "fuzzy_trigger:blob:"
  endpoint := none

end Settings

/-- All settings of the service. -/
structure Settings where
  redis : Settings.Redis
  stateStore : Settings.StateStore
  evaluation : Settings.Evaluation
  notices : Settings.Notices
  intake : Settings.Intake

end TriggerWatch
