import TriggerWatch.Json.Tree

/-!
# Reading records

A record type has named fields in a fixed order. Its written form is an object with these fields
(others are passed over, and none of these may be repeated) or an array of the field values in
their order.

## Main definitions

- `Json.Record` — the fields found in a written record
- `Json.Tree.record?` — take a written record apart
- `Json.Record.required`, `Json.Record.nullable`, `Json.Record.withDefault` — read one field
- `Json.Tree.text?`, `Json.Tree.float?`, `Json.Tree.integer?` — read a leaf

## Design notes

An array leaves fields out only at its end. A field that may be left out of an object may be left
out of an array only if its type names a default (`withDefault`), not if it is merely nullable.
-/

namespace TriggerWatch.Json

/-- The fields found in a written record. -/
structure Record where
  /-- Whether the record is written as an array. -/
  positional : Bool
  /-- The fields found, under their names. -/
  fields : List (String × Tree)

namespace Tree

/-- Members whose keys all have a value. -/
def readableKeys? : List (Option String × Tree) → Option (List (String × Tree))
  | [] => some []
  | (key, t) :: rest => key.bind fun k => (readableKeys? rest).map ((k, t) :: ·)

/-- Take apart a record with the given field names. -/
def record? (names : List String) : Tree → Option Record
  | .object members =>
    (readableKeys? members).bind fun members =>
      let known := members.filter fun m => names.contains m.1
      if (known.map Prod.fst).Nodup then some { positional := false, fields := known } else none
  | .array items =>
    if items.length ≤ names.length then
      some { positional := true, fields := names.zip items }
    else none
  | _ => none

/-- A text. -/
def text? : Tree → Option String
  | .string s => some s
  | _ => none

/-- A number as a floating-point number. -/
def float? : Tree → Option Float
  | .number n => some n.toFloat
  | _ => none

/-- A whole number between two bounds. -/
def integer? (low high : Int) : Tree → Option Int
  | .number (.int n) => if low ≤ n ∧ n ≤ high then some n else none
  | _ => none

end Tree

namespace Record

/-- The written form of a field, if the record has it. -/
def field? (r : Record) (name : String) : Option Tree := Dict.get? r.fields name

/-- Read a field that must be there. -/
def required {α : Type} (r : Record) (name : String) (read? : Tree → Option α) : Option α :=
  (r.field? name).bind read?

/-- Read a value or `null`. -/
def orNull? {α : Type} (read? : Tree → Option α) : Tree → Option (Option α)
  | .null => some none
  | t => (read? t).map some

/-- Read a field that may hold `null` and may be left out of an object. -/
def nullable {α : Type} (r : Record) (name : String) (read? : Tree → Option α) :
    Option (Option α) :=
  match r.field? name with
  | some t => orNull? read? t
  | none => if r.positional then none else some none

/-- Read a field that may be left out and then has a default. -/
def withDefault {α : Type} (r : Record) (name : String) (default : α) (read? : Tree → Option α) :
    Option α :=
  match r.field? name with
  | some t => read? t
  | none => some default

end Record

end TriggerWatch.Json
