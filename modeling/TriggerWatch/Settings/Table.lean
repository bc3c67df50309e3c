import TriggerWatch.Dict
import TriggerWatch.Settings.Flaw
import TriggerWatch.Text.Blank
import TriggerWatch.Text.Split

/-!
# Tables in settings

A table is written as entries `key=value` between commas. Blanks around entries, keys and values do
not matter, empty entries are passed over, and the last entry of a key wins.

## Main definitions

- `Settings.readTable` — the table written in a variable
-/

namespace TriggerWatch.Settings

/-- The key and the value of an entry. -/
def readEntry (variableName : String) (entry : List Char) : Except Flaw (String × String) :=
  match Text.cut? '=' entry with
  | none => .error (.entryWithoutEquals variableName (String.ofList entry))
  | some (key, value) =>
    let key := Text.trim key
    let value := Text.trim value
    if key.isEmpty || value.isEmpty then
      .error (.entryWithEmptySide variableName (String.ofList entry))
    else .ok (String.ofList key, String.ofList value)

/-- Add the entries to a table, one after the other; the first flaw is reported. -/
def addEntries (variableName : String) : List (List Char) → Dict String →
    Except Flaw (Dict String)
  | [], table => .ok table
  | entry :: rest, table =>
    match readEntry variableName entry with
    | .error flaw => .error flaw
    | .ok (key, value) => addEntries variableName rest (table.insert key value)

/-- The entries of a written table, without blanks around them and without empty ones. -/
def entries (text : List Char) : List (List Char) :=
  ((Text.split ',' text).map Text.trim).filter fun entry => !entry.isEmpty

/-- The table written in a variable. -/
def readTable (variableName : String) (text : String) : Except Flaw (Dict String) :=
  addEntries variableName (entries text.toList) []

end TriggerWatch.Settings
