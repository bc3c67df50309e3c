import TriggerWatch.Time.Calendar

/-!
# Instants and spans of time

An instant is a second of the universal time line and a number of nanoseconds into it. A leap second
belongs to the second before it, the last one of a minute: its instants have a second's worth of
nanoseconds more. Instants lie in the years from -262143 to 262142.

## Main definitions

- `Span` — a signed length of time
- `Instant` — a point of time
- `Instant.toNanos` — the distance from the start of 1970
- `Instant.add?`, `Instant.sub?` — move by a span; none outside the calendar

## Main statements

- `Instant.lt_iff_toNanos_lt` — off leap seconds the order is that of the distances
- `Instant.add?_eq_some_iff` — off leap seconds a sum is found by its distance
-/

namespace TriggerWatch

/-- A signed length of time. -/
structure Span where
  /-- The length in nanoseconds. -/
  nanos : Int
deriving DecidableEq, Repr

namespace Span

/-- The largest number of whole seconds in a span. -/
def maxSeconds : Int := 0x7fffffffffffffff / 1000

/-- The span of a number of seconds. -/
def ofSeconds (n : Int) : Span := ⟨n * 1000000000⟩

/-- The span of a number of seconds, if it is not too long. -/
def ofSeconds? (n : Int) : Option Span :=
  if -maxSeconds ≤ n ∧ n ≤ maxSeconds then some (ofSeconds n) else none

/-- The span of a number of milliseconds. -/
def ofMillis (n : Int) : Span := ⟨n * 1000000⟩

/-- The span as a number of seconds, without the rest. -/
def seconds (d : Span) : Int := d.nanos.tdiv 1000000000

instance : Neg Span := ⟨fun d => ⟨-d.nanos⟩⟩
instance : LE Span := ⟨fun a b => a.nanos ≤ b.nanos⟩
instance : LT Span := ⟨fun a b => a.nanos < b.nanos⟩
instance (a b : Span) : Decidable (a ≤ b) := inferInstanceAs (Decidable (a.nanos ≤ b.nanos))
instance (a b : Span) : Decidable (a < b) := inferInstanceAs (Decidable (a.nanos < b.nanos))
instance : Max Span := ⟨fun a b => if a ≤ b then b else a⟩

@[simp] theorem nanos_neg (d : Span) : (-d).nanos = -d.nanos := rfl

theorem le_iff (a b : Span) : a ≤ b ↔ a.nanos ≤ b.nanos := Iff.rfl

theorem nanos_max (a b : Span) : (max a b).nanos = max a.nanos b.nanos := by
  show (if a ≤ b then b else a).nanos = _
  split
  · next h => exact (Int.max_eq_right h).symm
  · next h =>
    rw [le_iff] at h
    omega

end Span

/-- The first second of the calendar. -/
def firstSecond : Int := -8334601228800

/-- The last second of the calendar. -/
def lastSecond : Int := 8210266876799

/-- A point of time. -/
structure Instant where
  /-- Whole seconds from the start of 1970. -/
  seconds : Int
  /-- Nanoseconds into the second; a leap second counts on from the second before it. -/
  nanos : Nat
  first_le : firstSecond ≤ seconds
  le_last : seconds ≤ lastSecond
  nanos_lt : nanos < 2000000000
  leap_at_end : 1000000000 ≤ nanos → seconds % 60 = 59
deriving DecidableEq

namespace Instant

/-- The earliest instant. -/
def earliest : Instant := ⟨firstSecond, 0, by decide, by decide, by decide, by decide⟩

/-- The latest instant off a leap second. -/
def latest : Instant :=
  ⟨lastSecond, 999999999, by decide, by decide, by decide, by decide⟩

instance : Inhabited Instant := ⟨earliest⟩

instance : LT Instant :=
  ⟨fun a b => a.seconds < b.seconds ∨ (a.seconds = b.seconds ∧ a.nanos < b.nanos)⟩

instance : LE Instant := ⟨fun a b => ¬ b < a⟩

instance (a b : Instant) : Decidable (a < b) :=
  inferInstanceAs (Decidable (a.seconds < b.seconds ∨ (a.seconds = b.seconds ∧ a.nanos < b.nanos)))

instance (a b : Instant) : Decidable (a ≤ b) := inferInstanceAs (Decidable (¬ b < a))

theorem lt_iff (a b : Instant) :
    a < b ↔ a.seconds < b.seconds ∨ (a.seconds = b.seconds ∧ a.nanos < b.nanos) := Iff.rfl

theorem le_iff_not_lt (a b : Instant) : a ≤ b ↔ ¬ b < a := Iff.rfl

/-- The distance from the start of 1970 in nanoseconds. -/
def toNanos (t : Instant) : Int := t.seconds * 1000000000 + t.nanos

/-- Whether the instant lies in a leap second. -/
def isLeap (t : Instant) : Prop := 1000000000 ≤ t.nanos

instance (t : Instant) : Decidable t.isLeap := inferInstanceAs (Decidable (_ ≤ _))

/-- The instant of a second and nanoseconds into it, if it lies in the calendar. Only the last
second of a minute is followed by a leap second. -/
def ofParts? (seconds : Int) (nanos : Nat) : Option Instant :=
  if h : firstSecond ≤ seconds ∧ seconds ≤ lastSecond ∧ nanos < 2000000000 ∧
      (1000000000 ≤ nanos → seconds % 60 = 59) then
    some ⟨seconds, nanos, h.1, h.2.1, h.2.2.1, h.2.2.2⟩
  else none

/-- The instant off leap seconds at a distance from the start of 1970. -/
def ofNanos? (n : Int) : Option Instant :=
  ofParts? (n / 1000000000) (n % 1000000000).toNat

/-- Move an instant by a span. A span that does not lead out of a leap second stays inside it. -/
def add? (t : Instant) (d : Span) : Option Instant :=
  if ¬ t.isLeap then ofNanos? (t.toNanos + d.nanos)
  else if 2000000000 ≤ t.nanos + d.nanos then
    ofNanos? (t.toNanos - 1000000000 + d.nanos)
  else if d.nanos ≤ -1000000000 then ofNanos? (t.toNanos + d.nanos)
  else ofParts? t.seconds (t.nanos + d.nanos).toNat

/-- Move an instant back by a span. -/
def sub? (t : Instant) (d : Span) : Option Instant := t.add? (-d)

/-- The instant without the nanoseconds below the microsecond. -/
def truncated (t : Instant) : Instant :=
  ⟨t.seconds, t.nanos - t.nanos % 1000, t.first_le, t.le_last,
    by have := t.nanos_lt; omega, fun h => t.leap_at_end (by omega)⟩

theorem toNanos_of_ofNanos? {n : Int} {t : Instant} (h : ofNanos? n = some t) : t.toNanos = n := by
  simp only [ofNanos?, ofParts?] at h
  split at h
  · simp only [Option.some.injEq] at h
    subst h
    simp only [toNanos]
    omega
  · simp at h

theorem not_isLeap_of_ofNanos? {n : Int} {t : Instant} (h : ofNanos? n = some t) : ¬ t.isLeap := by
  simp only [ofNanos?, ofParts?] at h
  split at h
  · simp only [Option.some.injEq] at h
    subst h
    simp only [isLeap]
    omega
  · simp at h

/-- Off leap seconds the order of instants is that of their distances. -/
theorem lt_iff_toNanos_lt {a b : Instant} (ha : ¬ a.isLeap) (hb : ¬ b.isLeap) :
    a < b ↔ a.toNanos < b.toNanos := by
  simp only [isLeap] at ha hb
  simp only [lt_iff, toNanos]
  omega

/-- Off leap seconds the order of instants is that of their distances. -/
theorem le_iff_toNanos_le {a b : Instant} (ha : ¬ a.isLeap) (hb : ¬ b.isLeap) :
    a ≤ b ↔ a.toNanos ≤ b.toNanos := by
  rw [le_iff_not_lt, lt_iff_toNanos_lt hb ha]
  omega

/-- An instant off leap seconds is found by its distance. -/
theorem ofNanos?_toNanos {t : Instant} (h : ¬ t.isLeap) : ofNanos? t.toNanos = some t := by
  obtain ⟨s, n, hf, hl, hn, he⟩ := t
  simp only [isLeap] at h
  simp only [ofNanos?, ofParts?, toNanos]
  have hs : (s * 1000000000 + n) / 1000000000 = s := by omega
  have hm : ((s * 1000000000 + n) % 1000000000).toNat = n := by omega
  simp only [hs, hm]
  rw [dif_pos ⟨hf, hl, hn, he⟩]

/-- Off leap seconds a sum is the instant at the sum of the distances. -/
theorem add?_eq_some_iff {t u : Instant} (d : Span) (h : ¬ t.isLeap) :
    t.add? d = some u ↔ ¬ u.isLeap ∧ u.toNanos = t.toNanos + d.nanos := by
  simp only [add?, h, not_false_eq_true, if_true]
  constructor
  · intro hu
    exact ⟨not_isLeap_of_ofNanos? hu, toNanos_of_ofNanos? hu⟩
  · rintro ⟨hu, he⟩
    rw [← he]
    exact ofNanos?_toNanos hu

end Instant

end TriggerWatch
