import TriggerWatch.Store.Shadow

/-!
# Stores in memory

Documents, reported state and messages held in memory, behind one link, so that a run can be
followed call by call and disturbed at any call.

## Main definitions

- `Memory.Call` — the calls made over the link
- `Memory.Change` — the changes that took effect
- `Memory` — the contents of the stores
- `Memory.documentStore` — the document store
- `Memory.shadowStore` — the store of reported state, apart from the documents
- `Memory.shadowDocuments` — the store of reported state inside the documents
- `Memory.Backing`, `Memory.shadows` — the choice between the two
- `Memory.notifier` — a notifier that keeps every message
-/

namespace TriggerWatch

/-- The calls made over the link. -/
inductive Memory.Call where
  | get (key : String)
  | put (key : String)
  /-- Merge into the reported state of a device. -/
  | updateReported (device : String)
  /-- Fetch the reported state of a device. -/
  | getReported (device : String)
deriving DecidableEq, Repr

/-- A change of the stores that took effect. -/
inductive Memory.Change where
  /-- A document was put under a key. -/
  | put (key : String) (document : Json)
  /-- Attributes were merged into the reported state of a device. -/
  | update (device : String) (attributes : Dict Json)
  /-- A message was posted on behalf of a device. -/
  | post (device text : String)

/-- The contents of the stores. -/
structure Memory where
  link : Link Memory.Call
  /-- The documents under their keys. -/
  documents : Dict Json
  /-- The reported state of each device that has reported anything. -/
  reported : Dict (Dict Json)
  /-- The messages posted, with the device on whose behalf they were; the first one first. -/
  notices : List (String × String)
  /-- Whether a message is accepted, by the number of messages before it. -/
  accepts : Nat → Bool
  /-- The changes that took effect; the first one first. -/
  changes : List Memory.Change := []

namespace Memory

/-- Stores without faults and with nothing in them, which accept every message. -/
def empty : Memory where
  link := Link.sound
  documents := []
  reported := []
  notices := []
  accepts _ := true

/-- Make a call over the link; a refused call fails with the message of the refusal. -/
def reach (call : Call) : Action Memory StoreFailure Unit :=
  Link.reach Memory.link (fun link m => { m with link }) StoreFailure.backend call

/-- Take note of a change that took effect. -/
def note (change : Change) (m : Memory) : Memory := { m with changes := m.changes ++ [change] }

/-- The document store. -/
def documentStore : Documents Memory where
  get key := do
    reach (.get key)
    return Dict.get? (← Action.stores).documents key
  put key document := do
    reach (.put key)
    Action.modifyStores fun m =>
      { m with documents := m.documents.insert key document }.note (.put key document)

/-- Merge attributes into the reported state of a device. -/
def merge (reported : Dict (Dict Json)) (device : String) (attributes : Dict Json) :
    Dict (Dict Json) :=
  reported.insert device (((Dict.get? reported device).getD []).extend attributes)

/-- The store of reported state, apart from the documents. -/
def shadowStore : Shadows Memory where
  update device attributes := do
    reach (.updateReported device)
    Action.modifyStores fun m =>
      { m with reported := merge m.reported device attributes }.note (.update device attributes)
  get device := do
    reach (.getReported device)
    return Dict.get? (← Action.stores).reported device

/-- The store of reported state inside the documents. Its calls and those it makes of the document
store both go over the link. -/
def shadowDocuments : Shadows Memory where
  update device attributes := do
    reach (.updateReported device)
    (Shadows.ofDocuments documentStore).update device attributes
    Action.modifyStores (note (.update device attributes))
  get device := do
    reach (.getReported device)
    (Shadows.ofDocuments documentStore).get device

/-- Where the reported state is kept. -/
inductive Backing where
  /-- Apart from the documents. -/
  | apart
  /-- In one document for each device. -/
  | documents
deriving DecidableEq, Repr

/-- The store of reported state. -/
def shadows : Backing → Shadows Memory
  | .apart => shadowStore
  | .documents => shadowDocuments

/-- A notifier that keeps every message, also one that is not accepted. -/
def notifier : Notifier Memory where
  post device text := do
    let accepted := (fun m : Memory => m.accepts m.notices.length) (← Action.stores)
    Action.modifyStores fun m =>
      { m with notices := m.notices ++ [(device, text)] }.note (.post device text)
    if accepted then return () else Action.fail (.rejected 503 "")

end Memory

end TriggerWatch
