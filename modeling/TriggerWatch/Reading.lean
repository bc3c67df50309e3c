import TriggerWatch.Datum
import TriggerWatch.Time.Format
import TriggerWatch.Time.Reader

/-!
# Readings

A reading is what a device reported for one of its attributes at some time.

## Main definitions

- `Reading` — a recorded value
- `Reading.toJson`, `Reading.ofTree?` — the written form
- `Reading.ofRecords` — the readings among stored records
-/

namespace TriggerWatch

/-- The timestamp of an instant as a value. -/
def Instant.toJson (t : Instant) : Json := .string t.format

/-- Read a timestamp. -/
def Instant.ofTree? (t : Json.Tree) : Option Instant := t.text?.bind Instant.ofText?

/-- A value reported by a device. -/
structure Reading where
  /-- The device; a record may lack it, for it is known from where the record is kept. -/
  device : String
  attr : String
  value : Datum
  /-- The time of the report. -/
  timestamp : Instant

namespace Reading

/-- The names of the fields of a written reading. -/
def fieldNames : List String := ["device", "attribute", "value", "timestamp"]

/-- The written form of a reading. -/
def toJson (r : Reading) : Json := Json.ofPairs [
  ("device", .string r.device),
  ("attribute", .string r.attr),
  ("value", r.value.toJson),
  ("timestamp", r.timestamp.toJson)]

/-- Read a reading. -/
def ofTree? (t : Json.Tree) : Option Reading := do
  let r ← t.record? fieldNames
  let device ← r.withDefault "device" "" Json.Tree.text?
  let attr ← r.required "attribute" Json.Tree.text?
  let value ← r.required "value" Datum.ofTree?
  let timestamp ← r.required "timestamp" Instant.ofTree?
  return { device, attr, value, timestamp }

/-- Read a reading from a stored record. -/
def ofJson? (v : Json) : Option Reading := ofTree? (Json.Tree.ofJson v)

/-- The readings among stored records, in their order; records of any other form are skipped. -/
def ofRecords (records : List Json) : List Reading := records.filterMap ofJson?

end Reading

end TriggerWatch
