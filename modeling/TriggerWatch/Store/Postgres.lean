import TriggerWatch.Json.Printer
import TriggerWatch.Store.Basic

/-!
# Postgres

A database keeps the reported state of each device in a row of one table. An update is a single
statement, so that updates of different attributes do not undo each other.

## Main definitions

- `Postgres.Statement` — the statements that the service uses
- `Postgres` — a database: its link and the rows of the table
- `Postgres.checkHealth`, `Postgres.createTable` — the statements at the start of the service
- `Postgres.shadowStore` — the store of reported state in the table
-/

namespace TriggerWatch

/-- The statements that the service uses. -/
inductive Postgres.Statement where
  /-- A statement that touches no table. -/
  | ping
  /-- Make the table unless there is one. -/
  | createTable
  /-- Merge attributes into the row of a device, or make the row. -/
  | upsert (device : String) (attributes : Dict Json)
  /-- Find the row of a device. -/
  | select (device : String)

/-- A database with the table of reported state. -/
structure Postgres where
  link : Link Postgres.Statement
  /-- The reported state of each device that has a row. -/
  rows : Dict Json

namespace Postgres

/-- Run a statement. -/
def run (statement : Statement) : Action Postgres StoreFailure Unit :=
  Link.reach Postgres.link (fun link p => { p with link }) StoreFailure.database statement

/-- Check that the database answers. -/
def checkHealth : Action Postgres StoreFailure Unit := run .ping

/-- Make the table unless there is one. -/
def createTable : Action Postgres StoreFailure Unit := run .createTable

/-- The row of a device after an update: attributes win over older ones of their name. -/
def merge (row : Option Json) (attributes : Dict Json) : Json :=
  .object (((row.bind Json.members?).getD []).extend attributes)

/-- The store of reported state in the table. -/
def shadowStore : Shadows Postgres where
  update device attributes := do
    run (.upsert device attributes)
    Action.modifyStores fun p =>
      { p with rows := p.rows.insert device (merge (Dict.get? p.rows device) attributes) }
  get device := do
    run (.select device)
    match Dict.get? (← Action.stores).rows device with
    | none => return none
    | some (.object members) => return some members
    | some other => Action.fail <| .backend <|
        "reported state for " ++ device ++ " is not an object: " ++ Json.render other

end Postgres

end TriggerWatch
