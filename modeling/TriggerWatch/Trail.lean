import TriggerWatch.Key
import TriggerWatch.Reading
import TriggerWatch.Store.Basic

/-!
# Trails

Every evaluation leaves an entry in the trail of its device and trigger, with the submission as it
came, how the evaluation ended and when. A trail keeps its newest entries up to a capacity.

## Main definitions

- `Trail.Entry` — one entry
- `Trail.newest` — the last entries of a list
- `Trail.record` — add an entry to a trail
- `Trail.recent` — the entries of a trail
-/

namespace TriggerWatch.Trail

/-- How an evaluation ended. -/
structure Entry where
  /-- The submission as it came. -/
  request : Json
  /-- The kind of the outcome, or the label of the failure. -/
  outcome : String
  message : String
  /-- The time of the entry. -/
  recordedAt : Instant

namespace Entry

/-- The names of the fields of a written entry. -/
def fieldNames : List String := ["request", "outcome", "message", "recorded_at"]

/-- The written form of an entry. -/
def toJson (e : Entry) : Json := Json.ofPairs [
  ("request", e.request),
  ("outcome", .string e.outcome),
  ("message", .string e.message),
  ("recorded_at", e.recordedAt.toJson)]

/-- Read an entry. -/
def ofTree? (t : Json.Tree) : Option Entry := do
  let r ← t.record? fieldNames
  let request ← r.required "request" Json.Tree.value?
  let outcome ← r.required "outcome" Json.Tree.text?
  let message ← r.required "message" Json.Tree.text?
  let recordedAt ← r.required "recorded_at" Instant.ofTree?
  return { request, outcome, message, recordedAt }

/-- Read an entry from a stored value. -/
def ofJson? (v : Json) : Option Entry := ofTree? (Json.Tree.ofJson v)

end Entry

/-- The entries in a document; a document that is no list holds none. -/
def entriesOf (document : Option Json) : List Json := (document.bind Json.items?).getD []

/-- The last entries of a list, at most `capacity` of them. -/
def newest {α : Type} (capacity : Nat) (entries : List α) : List α :=
  entries.drop (entries.length - capacity)

variable {σ : Type} (docs : Documents σ)

/-- Add an entry to a trail and drop the oldest ones beyond the capacity. -/
def record (capacity : Nat) (device trigger : String) (entry : Entry) :
    Action σ StoreFailure Unit := do
  let entries := entriesOf (← docs.get (Key.trail device trigger))
  docs.put (Key.trail device trigger) (.array (newest capacity (entries ++ [entry.toJson])))

/-- The entries of a trail, the oldest first; what is no entry is skipped. -/
def recent (device trigger : String) : Action σ StoreFailure (List Entry) := do
  return (entriesOf (← docs.get (Key.trail device trigger))).filterMap Entry.ofJson?

end TriggerWatch.Trail
