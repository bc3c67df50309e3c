import TriggerWatch.Decimal.Layout
import TriggerWatch.Reading
import TriggerWatch.Store.Basic

/-!
# Firing a trigger

A trigger that fires becomes a reported attribute of its device, where other rules can watch it. The
result of the write is announced in chat. Whether the announcement is delivered does not matter.

## Main definitions

- `Firing.attributes` — what is written into the reported state
- `Firing.announcement` — what is said about it
- `Firing.fire` — write and announce
-/

namespace TriggerWatch.Firing

/-- The attributes written for a fire: the trigger with its certainty, and the time. The time is
written last and wins if the trigger has its name. -/
def attributes (trigger : String) (certainty : Float) (now : Instant) : Dict Json :=
  Dict.ofList [(trigger, Json.ofFloat certainty), ("timestamp", now.toJson)]

/-- What is said about a fire whose write succeeded or failed. -/
def announcement (trigger : String) (certainty : Float) (written : Bool) : String :=
  let assignment := trigger ++ " = " ++ Decimal.Layout.message.render certainty
  if written then "Device has set reported state successfully: " ++ assignment
  else "Error: Device failed to set reported state " ++ assignment

variable {σ : Type}

/-- Write a fire into the reported state of a device and announce the result. A failed write is the
failure of the action, after the announcement. -/
def fire (shadows : Shadows σ) (notifier : Notifier σ) (device trigger : String)
    (certainty : Float) (now : Instant) : Action σ StoreFailure Unit := do
  let result : Except StoreFailure Unit ←
    Action.attempt (shadows.update device (attributes trigger certainty now))
  let _ : Except DeliveryFailure Unit ←
    Action.attempt (notifier.post device (announcement trigger certainty result.isOk))
  Action.ofExcept result

end TriggerWatch.Firing
