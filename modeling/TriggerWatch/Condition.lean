import TriggerWatch.Datum

/-!
# Conditions on values

A condition lists up to three tests of a value. It holds as soon as one of them does.

## Main definitions

- `Condition` — the tests of a rule
- `Condition.isEmpty` — whether there is no test
- `Condition.holds` — whether one of the tests is met
-/

namespace TriggerWatch

/-- Tests of a value. -/
structure Condition where
  /-- A value to agree with. -/
  equals : Option Datum
  /-- A number to exceed. -/
  above : Option Float
  /-- A number to stay below. -/
  below : Option Float

namespace Condition

instance : Inhabited Condition := ⟨none, none, none⟩

/-- Whether the condition has no test. -/
def isEmpty (c : Condition) : Bool := c.equals.isNone && c.above.isNone && c.below.isNone

/-- Whether a value agrees with the expected one. -/
def meetsEquals (c : Condition) (v : Datum) : Bool :=
  match c.equals with
  | some expected => v.agrees expected
  | none => false

/-- Whether a value stands for a number above the limit. -/
def meetsAbove (c : Condition) (v : Datum) : Bool :=
  match c.above, v.numeric? with
  | some limit, some x => decide (x > limit)
  | _, _ => false

/-- Whether a value stands for a number below the limit. -/
def meetsBelow (c : Condition) (v : Datum) : Bool :=
  match c.below, v.numeric? with
  | some limit, some x => decide (x < limit)
  | _, _ => false

/-- Whether a value meets one of the tests. -/
def holds (c : Condition) (v : Datum) : Bool :=
  c.meetsEquals v || c.meetsAbove v || c.meetsBelow v

/-- The names of the fields of a written condition. -/
def fieldNames : List String := ["equals", "above", "below"]

/-- The written form of a condition; a missing test is `null`. -/
def toJson (c : Condition) : Json := Json.ofPairs [
  ("equals", Json.ofOption Datum.toJson c.equals),
  ("above", Json.ofOption Json.ofFloat c.above),
  ("below", Json.ofOption Json.ofFloat c.below)]

/-- Read a condition. -/
def ofTree? (t : Json.Tree) : Option Condition := do
  let r ← t.record? fieldNames
  let equals ← r.nullable "equals" Datum.ofTree?
  let above ← r.nullable "above" Json.Tree.float?
  let below ← r.nullable "below" Json.Tree.float?
  return { equals, above, below }

end Condition

end TriggerWatch
