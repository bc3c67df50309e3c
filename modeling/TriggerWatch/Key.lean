import TriggerWatch.Text.Blank

/-!
# Keys of stored documents

Every document has a key made from the name of a device and, for some, the name of a trigger. Names
with a separator in them are refused before a key is made, so keys tell the documents apart.

## Main definitions

- `Key.separator` — the character between the names in a key
- `Key.history`, `Key.cooldown`, `Key.trail`, `Key.shadow` — the keys of the four kinds of documents
- `Key.isAddressable` — whether a name may stand in a key
-/

namespace TriggerWatch.Key

/-- The character between the names in a key. -/
def separator : Char := '/'

/-- Whether a name contains the separator. -/
def hasSeparator (name : String) : Bool := name.toList.contains separator

/-- Whether a name is not blank and free of the separator. -/
def isAddressable (name : String) : Bool := !Text.isAllBlank name && !hasSeparator name

/-- The key of the history of a device. -/
def history (device : String) : String := device ++ "_events.json"

/-- The key of the last fire of a trigger. -/
def cooldown (device trigger : String) : String := device ++ "/" ++ trigger ++ "/trigger.json"

/-- The key of the trail of a trigger. -/
def trail (device trigger : String) : String := device ++ "/" ++ trigger ++ "/audit.json"

/-- The key of the reported state of a device. -/
def shadow (device : String) : String := device ++ "_shadow.json"

end TriggerWatch.Key
