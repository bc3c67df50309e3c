import TriggerWatch.Key
import TriggerWatch.Reading
import TriggerWatch.Store.Basic

/-!
# Cooling down

A trigger of a device fires at most once in the longer of the period of its rule and a floor that
holds for all triggers. The time of the last fire is kept in a document. A check that suppresses the
trigger leaves the document alone, so a rule that stays satisfied fires once per period.

## Main definitions

- `Cooldown.document`, `Cooldown.fire?` — between the time of the last fire and its document
- `Cooldown.isCooling` — whether a trigger has to wait
- `Cooldown.lastFire` — the time of the last fire
- `Cooldown.suppresses` — check a trigger and, if it may fire, record the fire
-/

namespace TriggerWatch.Cooldown

/-- The document that records a fire. -/
def document (t : Instant) : Json := .object [("timestamp", t.toJson)]

/-- The time of the fire in a document, if it is readable. -/
def fire? (document : Json) : Option Instant :=
  ((document.get? "timestamp").bind Json.string?).bind Instant.ofText?

/-- Whether a trigger that fired at `last` still has to wait at `now`. A wait that would end after
the calendar never ends. -/
def isCooling (wait : Span) (last now : Instant) : Bool :=
  match last.add? wait with
  | some ready => decide (now < ready)
  | none => true

variable {σ : Type} (docs : Documents σ)

/-- The time of the last fire of a trigger; an unreadable document counts as none. -/
def lastFire (device trigger : String) : Action σ StoreFailure (Option Instant) := do
  return (← docs.get (Key.cooldown device trigger)).bind fire?

/-- Whether a trigger is suppressed at `now`. If it is not, this is recorded as its last fire. -/
def suppresses (floor : Span) (device trigger : String) (period : Span) (now : Instant) :
    Action σ StoreFailure Bool := do
  let last ← lastFire docs device trigger
  if last.any fun last => isCooling (max period floor) last now then
    return true
  docs.put (Key.cooldown device trigger) (document now)
  return false

end TriggerWatch.Cooldown
