import TriggerWatch.Key
import TriggerWatch.Reading
import TriggerWatch.Store.Basic

/-!
# The history of a device

The readings of a device are kept in one document, a list of records in the order of their arrival.
Records stay as they were written: one that is no reading is skipped when a rule is judged and is
not repaired. Records older than the retention time leave the history whenever a reading joins it,
and so do records without a readable timestamp, for they would never grow old.

## Main definitions

- `History.timestamp?` — the time of a record
- `History.isRecent`, `History.keepRecent` — what the retention time leaves in the history
- `History.load`, `History.append`, `History.prune`, `History.ingest` — the calls on a history
-/

namespace TriggerWatch.History

/-- The records in a document; a document that is no list holds none. -/
def recordsOf (document : Option Json) : List Json := (document.bind Json.items?).getD []

/-- The time of a record, if it has a readable one. -/
def timestamp? (record : Json) : Option Instant :=
  ((record.get? "timestamp").bind Json.string?).bind Instant.ofText?

/-- Whether a record is not older than a horizon. -/
def isRecent (horizon : Instant) (record : Json) : Bool :=
  match timestamp? record with
  | some t => decide (horizon ≤ t)
  | none => false

/-- The records that are not older than a horizon, in their order. -/
def keepRecent (horizon : Instant) (records : List Json) : List Json :=
  records.filter (isRecent horizon)

variable {σ : Type} (docs : Documents σ)

/-- The records of a device. -/
def load (device : String) : Action σ StoreFailure (List Json) := do
  return recordsOf (← docs.get (Key.history device))

/-- Replace the records of a device. -/
def save (device : String) (records : List Json) : Action σ StoreFailure Unit :=
  docs.put (Key.history device) (.array records)

/-- Add a reading to the records of a device. -/
def append (device : String) (reading : Reading) : Action σ StoreFailure Unit := do
  let records ← load docs device
  save docs device (records ++ [reading.toJson])

/-- Remove the records older than the retention time. The records that stay are the answer. -/
def prune (retention : Span) (device : String) (now : Instant) :
    Action σ StoreFailure (List Json) := do
  let records ← load docs device
  let horizon ← Action.inCalendar (now.sub? retention)
  let kept := keepRecent horizon records
  save docs device kept
  return kept

/-- Add a reading and remove the records older than the retention time, which may be the new one
too. The history is read once and written once. The records that stay are the answer. -/
def ingest (retention : Span) (device : String) (reading : Reading) (now : Instant) :
    Action σ StoreFailure (List Json) := do
  let records ← load docs device
  let horizon ← Action.inCalendar (now.sub? retention)
  let kept := keepRecent horizon (records ++ [reading.toJson])
  save docs device kept
  return kept

end TriggerWatch.History
