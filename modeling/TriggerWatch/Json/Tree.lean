import TriggerWatch.Json.Basic

/-!
# Documents as written

A tree keeps what a JSON text says before it is known which parts of it matter: members in their
order with repeated keys, and a mark where the text is well formed but has no value (a number too
large, half of a surrogate pair, nesting too deep). A reader that skips a member skips such a mark
with it; a reader that wants the value fails on it.

## Main definitions

- `Json.Tree` — a document as written
- `Json.Tree.value?` — its value, if every part has one; the last member of a key wins
- `Json.Tree.ofJson` — a value as a tree
-/

namespace TriggerWatch.Json

/-- A document as written. -/
inductive Tree where
  | null
  | bool (b : Bool)
  | number (n : Number)
  | string (s : String)
  /-- Well-formed text without a value. -/
  | unreadable
  | array (items : List Tree)
  /-- Members in their order; a key may be without a value, and may be repeated. -/
  | object (members : List (Option String × Tree))

namespace Tree

instance : Inhabited Tree := ⟨.null⟩

mutual

/-- The value of a tree, if every part of it has one. -/
def value? : Tree → Option Json
  | .null => some .null
  | .bool b => some (.bool b)
  | .number n => some (.number n)
  | .string s => some (.string s)
  | .unreadable => none
  | .array items => (itemValues? items).map .array
  | .object members => (memberValues? members).map Json.ofPairs

/-- The values of a list of trees. -/
def itemValues? : List Tree → Option (List Json)
  | [] => some []
  | t :: rest => (value? t).bind fun v => (itemValues? rest).map (v :: ·)

/-- The values of a list of members. -/
def memberValues? : List (Option String × Tree) → Option (List (String × Json))
  | [] => some []
  | (key, t) :: rest =>
    key.bind fun k => (value? t).bind fun v => (memberValues? rest).map ((k, v) :: ·)

end

mutual

/-- A value as a tree. -/
def ofJson : Json → Tree
  | .null => .null
  | .bool b => .bool b
  | .number n => .number n
  | .string s => .string s
  | .array items => .array (ofItems items)
  | .object members => .object (ofMembers members)

/-- Values as trees. -/
def ofItems : List Json → List Tree
  | [] => []
  | v :: rest => ofJson v :: ofItems rest

/-- Members of an object as members of a tree. -/
def ofMembers : List (String × Json) → List (Option String × Tree)
  | [] => []
  | (k, v) :: rest => (some k, ofJson v) :: ofMembers rest

end

end Tree

end TriggerWatch.Json
