import TriggerWatch.Failure
import TriggerWatch.Json.Basic
import TriggerWatch.Store.Link

/-!
# Stores

The service keeps nothing itself. Documents lie in a document store under their keys, and what a
device reports lies in a store of reported state. Messages go to a notifier.

## Main definitions

- `Documents` — named JSON documents
- `Shadows` — the reported state of devices
- `Notifier` — messages for people
- `Documents.within`, `Shadows.within` — the same stores as a part of others
- `Documents.timed`, `Shadows.timed` — the same stores with a deadline on every call
- `Notifier.silent` — a notifier that sends nothing
-/

namespace TriggerWatch

/-- The calls of a document store. -/
structure Documents (σ : Type) where
  /-- Fetch a document, if there is one under the key. -/
  get : String → Action σ StoreFailure (Option Json)
  /-- Put a document under a key in place of any other. -/
  put : String → Json → Action σ StoreFailure Unit

/-- The calls of a store of reported state. -/
structure Shadows (σ : Type) where
  /-- Merge attributes into the reported state of a device. -/
  update : String → Dict Json → Action σ StoreFailure Unit
  /-- Fetch the reported state of a device, if it has reported anything. -/
  get : String → Action σ StoreFailure (Option (Dict Json))

/-- The call of a notifier. -/
structure Notifier (σ : Type) where
  /-- Post a message on behalf of a device. -/
  post : String → String → Action σ DeliveryFailure Unit

variable {σ τ : Type}

/-- The document store in a part of the stores. -/
def Documents.within (get : σ → τ) (set : τ → σ → σ) (docs : Documents τ) : Documents σ where
  get key := (docs.get key).focus get set
  put key document := (docs.put key document).focus get set

/-- The store of reported state in a part of the stores. -/
def Shadows.within (get : σ → τ) (set : τ → σ → σ) (shadows : Shadows τ) : Shadows σ where
  update device attributes := (shadows.update device attributes).focus get set
  get device := (shadows.get device).focus get set

/-- A notifier that only takes note of messages. -/
def Notifier.silent : Notifier σ where
  post _ _ := return ()

/-- Run a store call under a deadline. -/
def StoreCall.timed {α : Type} (call : StoreCall) (milliseconds : Nat)
    (a : Action σ StoreFailure α) : Action σ StoreFailure α :=
  Action.within milliseconds (.timeout call milliseconds) a

/-- The document store with a deadline on every call. -/
def Documents.timed (docs : Documents σ) (milliseconds : Nat) : Documents σ where
  get key := StoreCall.getDocument.timed milliseconds (docs.get key)
  put key document := StoreCall.putDocument.timed milliseconds (docs.put key document)

/-- The store of reported state with a deadline on every call. -/
def Shadows.timed (shadows : Shadows σ) (milliseconds : Nat) : Shadows σ where
  update device attributes :=
    StoreCall.updateState.timed milliseconds (shadows.update device attributes)
  get device := StoreCall.getState.timed milliseconds (shadows.get device)

end TriggerWatch
