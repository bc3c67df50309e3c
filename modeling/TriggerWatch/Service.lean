import TriggerWatch.Settings.Environment
import TriggerWatch.Store.Connection
import TriggerWatch.Store.Postgres
import TriggerWatch.Store.Shadow
import TriggerWatch.Worker

/-!
# The service

The service is made from the variables that are set. It connects to a Redis server, which holds the
documents and the queue, and to the store of reported state. Then the worker takes submissions.

## Main definitions

- `Servers` — the servers and where they listen
- `StartFailure` — why the service does not start
- `Service` — the connected parts of the service
- `Service.start` — make the service from the variables that are set
- `Service.work` — take submissions
- `Service.Ending` — how a run of the service ends
- `Service.run` — start the service and take submissions until there are none
-/

namespace TriggerWatch

/-- The servers and where they listen. -/
structure Servers where
  /-- Where the Redis server listens. -/
  redisAt : Endpoint
  redis : Redis
  /-- Where the database listens. -/
  databaseAt : Endpoint
  database : Postgres

namespace Servers

/-- Replace the Redis server. -/
def setRedis (redis : Redis) (s : Servers) : Servers := { s with redis }

/-- Replace the database. -/
def setDatabase (database : Postgres) (s : Servers) : Servers := { s with database }

end Servers

/-- Why the service does not start. -/
inductive StartFailure where
  /-- The settings have a flaw. -/
  | settings (flaw : Settings.Flaw)
  /-- The Redis server cannot be reached. -/
  | redis (cause : ServiceFailure)
  /-- The database cannot be reached. -/
  | database (cause : ServiceFailure)
  /-- The database does not answer a check. -/
  | health (cause : StoreFailure)
  /-- The table of reported state cannot be made. -/
  | table (cause : StoreFailure)
  /-- The shadow service of a cloud is not part of this build. -/
  | noShadowService
deriving DecidableEq, Repr

namespace StartFailure

/-- The wording of a failure of a step, with its cause. -/
def chain (step cause : String) : String := "Error: " ++ step ++ "\n\nCaused by:\n    " ++ cause

/-- The report on a failed start. -/
def report : StartFailure → String
  | .settings flaw =>
    chain "Failed to load configuration" (ServiceFailure.settings flaw.message).message
  | .redis cause => chain "Failed to connect to Redis" cause.message
  | .database cause => chain "Failed to create database pool" cause.message
  | .health cause => chain "Database health check failed" cause.message
  | .table cause => chain "Failed to prepare device_shadows table" cause.message
  | .noShadowService =>
    "Error: STATE_STORE_BACKEND=aws requires building with --features aws-shadow"

end StartFailure

/-- The connected parts of the service. -/
structure Service where
  evaluator : Evaluator Servers
  intake : Intake Servers
  /-- How many seconds to wait for a submission. -/
  pollTimeout : Nat

namespace Service

/-- Connect to the Redis server. -/
def openRedis (settings : Settings) : Action Servers StartFailure Unit := do
  let servers ← Action.stores
  Action.ofExcept <| (connectRedis (· == servers.redisAt) settings.redis.connectionUrl).mapError
    StartFailure.redis

/-- Connect to the database, check that it answers and make the table. -/
def openDatabase (d : Settings.Database) : Action Servers StartFailure Unit := do
  let servers ← Action.stores
  Action.ofExcept <| (connectDatabase (· == servers.databaseAt) d).mapError StartFailure.database
  (Postgres.checkHealth.focus Servers.database Servers.setDatabase).mapFailure .health
  (Postgres.createTable.focus Servers.database Servers.setDatabase).mapFailure .table

/-- The store of reported state that the settings ask for, over the documents of the service. -/
def openShadows (settings : Settings) (docs : Documents Servers) :
    Action Servers StartFailure (Shadows Servers) :=
  match settings.stateStore with
  | .postgres d => do
    openDatabase d
    return Postgres.shadowStore.within Servers.database Servers.setDatabase
  | .redis => return Shadows.ofDocuments docs
  | .aws => Action.fail .noShadowService

/-- Make the service from the variables that are set. Messages go to the given notifier. -/
def start (env : Settings.Environment) (notifier : Notifier Servers) :
    Action Servers StartFailure Service := do
  let settings ← Action.ofExcept ((Settings.ofEnvironment env).mapError StartFailure.settings)
  openRedis settings
  let docs := (Redis.documentStore settings.intake.keyPrefix).within Servers.redis Servers.setRedis
  let shadows ← openShadows settings docs
  let evaluator ← Action.inCalendar
    (Evaluator.ofSettings? docs shadows notifier settings.evaluation)
  return {
    evaluator
    intake := (Redis.intake settings.intake.queue).within Servers.redis Servers.setRedis
    pollTimeout := settings.intake.pollTimeout }

/-- Take submissions a number of times. -/
def work {ε : Type} (s : Service) (clock : Nat → ClockReadings) (times : Nat) :
    Action Servers ε Worker.Stats :=
  Worker.work s.evaluator s.intake s.pollTimeout clock times

/-- How a run of the service ends. -/
inductive Ending where
  /-- It did not start. -/
  | refused (failure : StartFailure)
  /-- It was stopped while it waited for submissions. -/
  | interrupted (stats : Worker.Stats)
  /-- It needed a point of time outside the calendar. -/
  | outsideCalendar
deriving DecidableEq, Repr

/-- The exit status of a run. -/
def Ending.status : Ending → Nat
  | .refused _ => 1
  | .interrupted _ => 0
  | .outsideCalendar => 101

/-- The report on a run that failed. -/
def Ending.report : Ending → String
  | .refused failure => failure.report
  | .interrupted _ => ""
  | .outsideCalendar => "a point of time outside the calendar was needed"

/-- The number of messages in the list that the settings name as the queue. -/
def waiting (env : Settings.Environment) (servers : Servers) : Nat :=
  match Settings.ofEnvironment env with
  | .error _ => 0
  | .ok settings =>
    match Dict.get? servers.redis.keys settings.intake.queue with
    | some (.list items) => items.length
    | _ => 0

/-- Start the service and take submissions until there are none; the last time, the queue is found
empty. -/
def run (env : Settings.Environment) (notifier : Notifier Servers) (clock : Nat → ClockReadings)
    (servers : Servers) : Ending × Servers :=
  let a : Action Servers StartFailure Worker.Stats := do
    let service ← start env notifier
    service.work clock (waiting env servers + 1)
  match a.onSession { stores := servers, elapsed := 0, deadline := none } with
  | (.ok stats, t) => (.interrupted stats, t.stores)
  | (.error (.failed failure), t) => (.refused failure, t.stores)
  | (.error _, t) => (.outsideCalendar, t.stores)

end Service

end TriggerWatch
