import TriggerWatch.Window

/-!
# Outcomes

How an evaluation ended, with the tally it rests on and a message for people.

## Main definitions

- `Outcome.Kind` — the four ends of an evaluation
- `Outcome.of` — the outcome of a kind with its standard message
- `Outcome.toJson`, `Outcome.ofTree?` — the written form
-/

namespace TriggerWatch

/-- How an evaluation ended. -/
inductive Outcome.Kind where
  /-- The history does not reach back far enough. -/
  | pending
  /-- The certainty is too low, or there were no readings to test. -/
  | belowThreshold
  /-- The rule is satisfied, but its trigger fired a short while ago. -/
  | suppressed
  /-- The rule is satisfied and the trigger was written into the reported state. -/
  | fired
deriving DecidableEq, Repr

/-- The result of an evaluation. Its counts are those of a tally and have no upper bound; a written
outcome is read with counts of at most 32 bits. -/
structure Outcome where
  kind : Outcome.Kind
  message : String
  /-- The certainty, if there were readings to test. -/
  certainty : Option Float
  /-- The number of readings in the window. -/
  tested : Nat
  /-- How many of them met the condition. -/
  satisfied : Nat

namespace Outcome

namespace Kind

/-- The name of a kind in documents. -/
def name : Kind → String
  | .pending => "pending"
  | .belowThreshold => "below_threshold"
  | .suppressed => "suppressed"
  | .fired => "fired"

/-- All kinds. -/
def all : List Kind := [.pending, .belowThreshold, .suppressed, .fired]

/-- The kind of a name. -/
def ofName? (name : String) : Option Kind := all.find? fun k => k.name == name

/-- Read a kind: its name, or an object whose only member has this name and holds `null`. -/
def ofTree? : Json.Tree → Option Kind
  | .string s => ofName? s
  | .object [(some key, .null)] => ofName? key
  | _ => none

end Kind

/-- The message of an outcome. -/
def messageOf (kind : Kind) (trigger : String) (t : Tally) : String :=
  match kind with
  | .pending =>
    s!"Waiting for more events until trigger_period is reached for trigger {trigger}. {t.summary}"
  | .belowThreshold =>
    s!"Certainty {t.label} is not sufficient to start trigger {trigger}. {t.summary}"
  | .suppressed =>
    s!"Trigger {trigger} was already triggered recently. Try again later. {t.summary}"
  | .fired => s!"Triggered {trigger} with certainty {t.label}. {t.summary}"

/-- The outcome of a kind for a trigger and a tally. -/
def of (kind : Kind) (trigger : String) (t : Tally) : Outcome :=
  { kind
    message := messageOf kind trigger t
    certainty := t.certainty
    tested := t.tested
    satisfied := t.satisfied }

/-- The names of the fields of a written outcome. -/
def fieldNames : List String :=
  ["kind", "message", "certainty", "events_tested", "events_satisfied"]

/-- The written form of an outcome. -/
def toJson (o : Outcome) : Json := Json.ofPairs [
  ("kind", .string o.kind.name),
  ("message", .string o.message),
  ("certainty", Json.ofOption Json.ofFloat o.certainty),
  ("events_tested", .number (.int o.tested)),
  ("events_satisfied", .number (.int o.satisfied))]

/-- Read a count of at most 32 bits. -/
def count? (t : Json.Tree) : Option Nat := (t.integer? 0 0xffffffff).map Int.toNat

/-- Read an outcome. -/
def ofTree? (t : Json.Tree) : Option Outcome := do
  let r ← t.record? fieldNames
  let kind ← r.required "kind" Kind.ofTree?
  let message ← r.required "message" Json.Tree.text?
  let certainty ← r.nullable "certainty" Json.Tree.float?
  let tested ← r.required "events_tested" count?
  let satisfied ← r.required "events_satisfied" count?
  return { kind, message, certainty, tested, satisfied }

end Outcome

end TriggerWatch
