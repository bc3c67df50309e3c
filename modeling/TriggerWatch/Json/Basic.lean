import TriggerWatch.Dict

/-!
# JSON values

Values as the library holds them: an object is a dictionary, so its keys are distinct and in
ascending order, and a whole number keeps apart from a floating-point one.

## Main definitions

- `Json.Number` — a whole number or a floating-point number
- `Json` — JSON values
- `Json.get?` — a member of an object
-/

namespace TriggerWatch

/-- A number inside a document. -/
inductive Json.Number where
  /-- A number written without fraction and exponent, within 64 bits. -/
  | int (n : Int)
  /-- Any other number. -/
  | float (x : Float)

/-- A JSON value. -/
inductive Json where
  | null
  | bool (b : Bool)
  | number (n : Json.Number)
  | string (s : String)
  | array (items : List Json)
  /-- Values under distinct keys, in ascending order of keys. -/
  | object (members : List (String × Json))

namespace Json

instance : Inhabited Json := ⟨.null⟩

/-- The nearest floating-point number. -/
def Number.toFloat : Number → Float
  | .int n => if n < 0 then -(Float.ofNat n.natAbs) else Float.ofNat n.natAbs
  | .float x => x

/-- The member of an object under a key. Other values have no members. -/
def get? : Json → String → Option Json
  | .object members, key => Dict.get? members key
  | _, _ => none

/-- The text of a string value. -/
def string? : Json → Option String
  | .string s => some s
  | _ => none

/-- The items of an array. -/
def items? : Json → Option (List Json)
  | .array items => some items
  | _ => none

/-- The members of an object. -/
def members? : Json → Option (Dict Json)
  | .object members => some members
  | _ => none

/-- The object with the given members. -/
def ofPairs (pairs : List (String × Json)) : Json := .object (Dict.ofList pairs)

/-- A floating-point number as a value. A document has no infinities and no undefined number, and
holds `null` in their place. -/
def ofFloat (x : Float) : Json := if x.isFinite then .number (.float x) else .null

/-- An optional value, `null` if it is missing. -/
def ofOption {α : Type} (f : α → Json) : Option α → Json
  | some a => f a
  | none => .null

end Json

end TriggerWatch
