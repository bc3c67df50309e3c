import TriggerWatch.Json.Parser
import TriggerWatch.Json.Printer
import TriggerWatch.Store.Basic

/-!
# Redis

A Redis server keeps byte strings and lists of byte strings under keys. The service keeps each
document as the text of its JSON under one key, and takes submissions from a list.

## Main definitions

- `Redis.Value` — what a key holds
- `Redis.Command` — the commands that the service uses
- `Redis` — a server: its link and its keys
- `Redis.get`, `Redis.set`, `Redis.length`, `Redis.popRight` — the four commands
- `Redis.documentStore` — documents in the strings under prefixed keys

## Main statements

- `Redis.decode_encode` — a stored text reads back as itself
-/

namespace TriggerWatch

/-- What a key holds. -/
inductive Redis.Value where
  | string (bytes : ByteArray)
  /-- A list of byte strings, its left end first. -/
  | list (items : List ByteArray)

/-- The commands that the service uses. -/
inductive Redis.Command where
  /-- Fetch a byte string. -/
  | get (key : String)
  /-- Put a text under a key in place of anything else. -/
  | set (key text : String)
  /-- The length of a list. -/
  | length (key : String)
  /-- Take the item at the right end of a list; wait some seconds for one if there is none. -/
  | popRight (key : String) (seconds : Nat)
deriving DecidableEq, Repr

/-- A Redis server. -/
structure Redis where
  link : Link Redis.Command
  /-- What the keys hold. -/
  keys : Dict Redis.Value

namespace Redis

/-- The words of a command. -/
def Command.words : Command → List String
  | .get key => ["GET", key]
  | .set key text => ["SET", key, text]
  | .length key => ["LLEN", key]
  | .popRight key seconds =>
    ["BRPOP", key, Decimal.Layout.message.render (Float.ofNat seconds)]

/-- The bytes of a text. -/
def encode (text : String) : ByteArray := text.toByteArray

/-- The text of bytes in UTF-8. -/
def decode (bytes : ByteArray) : Option String := String.fromUTF8? bytes

/-- A stored text reads back as itself. -/
@[simp] theorem decode_encode (text : String) : decode (encode text) = some text := by
  obtain ⟨bytes, valid⟩ := text
  simp [decode, encode, String.fromUTF8?, String.fromUTF8, valid]

/-- Send a command to the server. -/
def send (command : Command) : Action Redis StoreFailure Unit :=
  Link.reach Redis.link (fun link r => { r with link }) StoreFailure.redis command

/-- The failure of a command on a key that holds a value of another kind. -/
def wrongKind : StoreFailure := .redis "the key holds a value of another kind"

/-- The text of a reply. -/
def textOf (bytes : ByteArray) : Action Redis StoreFailure String :=
  match decode bytes with
  | some text => return text
  | none => Action.fail (.redis "the reply is no text")

/-- Fetch a text. -/
def get (key : String) : Action Redis StoreFailure (Option String) := do
  send (.get key)
  match Dict.get? (← Action.stores).keys key with
  | none => return none
  | some (.string bytes) => some <$> textOf bytes
  | some (.list _) => Action.fail wrongKind

/-- Put a text under a key in place of anything else. -/
def set (key text : String) : Action Redis StoreFailure Unit := do
  send (.set key text)
  Action.modifyStores fun r => { r with keys := r.keys.insert key (.string (encode text)) }

/-- The length of a list; a missing one is empty. -/
def length (key : String) : Action Redis StoreFailure Nat := do
  send (.length key)
  match Dict.get? (← Action.stores).keys key with
  | none => return 0
  | some (.list items) => return items.length
  | some (.string _) => Action.fail wrongKind

/-- Take the item at the right end of a list, if there is one. An item that is no text is taken
all the same. -/
def popRight (key : String) (seconds : Nat) : Action Redis StoreFailure (Option String) := do
  send (.popRight key seconds)
  match Dict.get? (← Action.stores).keys key with
  | none => return none
  | some (.string _) => Action.fail wrongKind
  | some (.list items) =>
    match items.getLast? with
    | none => return none
    | some bytes =>
      Action.modifyStores fun r => { r with keys := r.keys.insert key (.list items.dropLast) }
      some <$> textOf bytes

/-- The document in a stored text. -/
def documentOf (text : String) : Action Redis StoreFailure Json :=
  match Json.ofText? text with
  | some document => return document
  | none => Action.fail (.serialization "the stored text is no document")

/-- The document store in the strings under prefixed keys. -/
def documentStore (keyPrefix : String) : Documents Redis where
  get key := do
    match ← get (keyPrefix ++ key) with
    | none => return none
    | some text => some <$> documentOf text
  put key document := set (keyPrefix ++ key) (Json.render document)

end Redis

end TriggerWatch
