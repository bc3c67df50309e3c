import TriggerWatch.Decimal.Layout
import TriggerWatch.Decimal.Read
import TriggerWatch.Json.Record
import TriggerWatch.Text.Blank

/-!
# Attribute values

What a sensor reports for an attribute: a number or a text. A text that spells a finite number can
stand for that number.

## Main definitions

- `Datum` — a number or a text
- `Datum.numeric?` — the number that a value stands for
- `Datum.agrees` — equality that reads text as a number where the other side is a number
- `Datum.toJson`, `Datum.ofTree?` — the written form
-/

namespace TriggerWatch

/-- The value of an attribute. -/
inductive Datum where
  /-- A number; whole numbers are not kept apart. -/
  | number (x : Float)
  | text (s : String)

namespace Datum

instance : Inhabited Datum := ⟨.text ""⟩

/-- The number that a value stands for. Blanks around a numeric text do not matter. -/
def numeric? : Datum → Option Float
  | .number x => some x
  | .text s => Decimal.readFinite? (Text.trim s.toList)

/-- Whether two values agree. Values of one kind agree if they are equal; a number and a text
agree if the text stands for that number. -/
def agrees : Datum → Datum → Bool
  | .number x, .number y => x == y
  | .text s, .text t => s == t
  | .number x, .text t => match numeric? (.text t) with
    | some y => x == y
    | none => false
  | .text s, .number y => match numeric? (.text s) with
    | some x => x == y
    | none => false

/-- The value inside a message. -/
def display : Datum → String
  | .number x => Decimal.Layout.message.render x
  | .text s => s

/-- The written form of a value. -/
def toJson : Datum → Json
  | .number x => Json.ofFloat x
  | .text s => .string s

/-- Read a value: a number or a text. -/
def ofTree? : Json.Tree → Option Datum
  | .number n => some (.number n.toFloat)
  | .string s => some (.text s)
  | _ => none

end Datum

end TriggerWatch
