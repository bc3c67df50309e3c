import TriggerWatch.Decimal.Fixed
import TriggerWatch.Reading
import TriggerWatch.Rule

/-!
# Windows and verdicts

A rule is judged on the readings of its attribute in a window that ends now and is one period long.
The readings of the period before the window are not counted; one of them shows that the history
reaches back far enough. A window that would begin before the calendar begins with it.

## Main definitions

- `Window` — where the window and the period before it begin
- `Window.isInside`, `Window.isPrior` — the place of a reading
- `Tally` — how many readings were tested, how many met the condition
- `Rule.tally` — the tally of a rule at an instant
- `Verdict`, `Rule.verdict` — what a tally means for a rule
-/

namespace TriggerWatch

/-- A window of one period and the period before it. -/
structure Window where
  /-- The begin of the window. -/
  start : Instant
  /-- The begin of the period before the window. -/
  priorStart : Instant

namespace Window

/-- The instant one period earlier, or the begin of the calendar. -/
def back (t : Instant) (period : Span) : Instant := (t.sub? period).getD Instant.earliest

/-- The window of a period that ends at `now`. -/
def ending (now : Instant) (period : Span) : Window :=
  { start := back now period, priorStart := back (back now period) period }

/-- Whether an instant lies in the window or after it. -/
def isInside (w : Window) (t : Instant) : Bool := !(t < w.priorStart) && !(t < w.start)

/-- Whether an instant lies in the period before the window. -/
def isPrior (w : Window) (t : Instant) : Bool := !(t < w.priorStart) && t < w.start

end Window

/-- What was counted in a window. The counts have no upper bound. Counts of 32 bits would differ
from them only at 2 ^ 32 readings or more, and a history of that length fits into no store. -/
structure Tally where
  /-- The number of readings in the window. -/
  tested : Nat
  /-- How many of them met the condition. -/
  satisfied : Nat
  /-- Whether there is a reading in the period before the window. -/
  covered : Bool
deriving DecidableEq, Repr

namespace Tally

instance : Inhabited Tally := ⟨0, 0, false⟩

/-- The share of readings that met the condition; there is none without readings. -/
def certainty (t : Tally) : Option Float :=
  if t.tested = 0 then none else some (Float.ofNat t.satisfied / Float.ofNat t.tested)

/-- A certainty with one decimal place. -/
def labelOf : Option Float → String
  | some x => Decimal.fixed 1 x
  | none => "undefined"

/-- The certainty with one decimal place. -/
def label (t : Tally) : String := labelOf t.certainty

/-- The sentence that closes every message about a tally. -/
def summary (t : Tally) : String :=
  s!"Certainty = {t.satisfied} / {t.tested} = {t.label}"

end Tally

/-- What a tally means for a rule. -/
inductive Verdict where
  /-- The history does not reach back far enough. -/
  | pending
  /-- The certainty is too low, or there were no readings to test. -/
  | below (certainty : Option Float)
  /-- The certainty is high enough. -/
  | satisfied (certainty : Float)

namespace Rule

/-- The tally of the readings of the rule's attribute at an instant. -/
def tally (r : Rule) (readings : List Reading) (now : Instant) : Tally :=
  let w := Window.ending now r.period
  let watched := readings.filter fun e => e.attr == r.attr
  { tested := watched.countP fun e => w.isInside e.timestamp
    satisfied := watched.countP fun e => w.isInside e.timestamp && r.condition.holds e.value
    covered := watched.any fun e => w.isPrior e.timestamp }

/-- The verdict on a tally. -/
def verdict (r : Rule) (t : Tally) : Verdict :=
  if !t.covered then .pending
  else
    match t.certainty with
    | some x => if x ≥ r.certainty then .satisfied x else .below (some x)
    | none => .below none

end Rule

end TriggerWatch
