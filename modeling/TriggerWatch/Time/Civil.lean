import TriggerWatch.Time.Instant

/-!
# Civil time

A date with a time of day, and its correspondence with instants. Second 60 is a leap second.

## Main definitions

- `Civil` — a date and a time of day
- `Civil.instant?` — the instant of a civil time at an offset from universal time
- `Instant.civil` — the civil time of an instant in universal time
-/

namespace TriggerWatch

/-- A date and a time of day. -/
structure Civil where
  date : Calendar.Date
  /-- The hour from 0 to 23. -/
  hour : Nat
  /-- The minute from 0 to 59. -/
  minute : Nat
  /-- The second from 0 to 60. -/
  second : Nat
  /-- Nanoseconds into the second. -/
  nanos : Nat
deriving DecidableEq, Repr

/-- Whether the date and the time of day exist. -/
def Civil.isValid (c : Civil) : Bool :=
  c.date.isValid && c.hour ≤ 23 && c.minute ≤ 59 && c.second ≤ 60 && c.nanos < 1000000000

/-- The instant at which clocks ahead of universal time by `offset` seconds show a civil time. -/
def Civil.instant? (c : Civil) (offset : Int) : Option Instant :=
  if c.isValid then
    let leap := c.second = 60
    let second := if leap then 59 else c.second
    let seconds := 86400 * c.date.toDay + 3600 * c.hour + 60 * c.minute + second - offset
    Instant.ofParts? seconds (if leap then c.nanos + 1000000000 else c.nanos)
  else none

/-- The civil time of an instant in universal time. -/
def Instant.civil (t : Instant) : Civil :=
  let ofDay := (t.seconds % 86400).toNat
  { date := Calendar.dateOf (t.seconds / 86400)
    hour := ofDay / 3600
    minute := ofDay / 60 % 60
    second := ofDay % 60 + t.nanos / 1000000000
    nanos := t.nanos % 1000000000 }

end TriggerWatch
