import TriggerWatch.Decimal.Read
import TriggerWatch.Text.Blank
import TriggerWatch.Time.Civil

/-!
# Reading timestamps

Blanks around a timestamp do not matter. It is either in the strict form, fields of fixed width and
an offset from universal time, or in the plain form, which has no offset and means universal time.
In the plain form a field may have fewer digits and blanks in front of it, and a year with a sign
may have any number of digits.

## Main definitions

- `Timestamp.offset?` — the offset at the end of the strict form
- `Timestamp.strict?`, `Timestamp.plain?` — the two forms
- `Instant.ofText?` — the instant of a timestamp
-/

namespace TriggerWatch

namespace Timestamp

open Decimal (natOfDigits)

/-- The text behind a character. -/
def char? (c : Char) : List Char → Option (List Char)
  | d :: rest => if d = c then some rest else none
  | [] => none

/-- A number of exactly `width` digits. -/
def fixedNumber? (width : Nat) (cs : List Char) : Option (Nat × List Char) :=
  let digits := cs.take width
  if digits.length = width && digits.all Char.isDigit then
    some (natOfDigits 0 digits, cs.drop width)
  else none

/-- A number of one to `width` digits, as many as there are. -/
def number? (width : Nat) (cs : List Char) : Option (Nat × List Char) :=
  let digits := (cs.take width).takeWhile Char.isDigit
  if digits.isEmpty then none else some (natOfDigits 0 digits, cs.drop digits.length)

/-- Nanoseconds from the digits after the point of a second: nine of them count, all are read. -/
def nanosOfDigits (digits : List Char) : Nat :=
  let kept := digits.take 9
  natOfDigits 0 (kept ++ List.replicate (9 - kept.length) '0')

/-- The optional fraction of a second. -/
def fraction? : List Char → Option (Nat × List Char)
  | '.' :: rest =>
    let digits := rest.takeWhile Char.isDigit
    if digits.isEmpty then none else some (nanosOfDigits digits, rest.dropWhile Char.isDigit)
  | rest => some (0, rest)

/-- An offset from universal time in seconds: `Z`, or a sign, hours and minutes. -/
def offset? : List Char → Option (Int × List Char)
  | [] => none
  | c :: rest =>
    if c = 'Z' || c = 'z' then some (0, rest)
    else
      let hoursAndMinutes (rest : List Char) : Option (Nat × List Char) :=
        (fixedNumber? 2 rest).bind fun (hours, rest) => (char? ':' rest).bind fun rest =>
          (fixedNumber? 2 rest).bind fun (minutes, rest) =>
            if minutes ≤ 59 then some (3600 * hours + 60 * minutes, rest) else none
      if c = '+' then (hoursAndMinutes rest).map fun (n, rest) => ((n : Int), rest)
      else if c = '-' || c = '\u2212' then
        (hoursAndMinutes rest).map fun (n, rest) => (-(n : Int), rest)
      else none

/-- The strict form: fields of fixed width, `T`, `t` or a space between date and time, and an
offset of less than a day. -/
def strict? (cs : List Char) : Option Instant := do
  let (year, cs) ← fixedNumber? 4 cs
  let cs ← char? '-' cs
  let (month, cs) ← fixedNumber? 2 cs
  let cs ← char? '-' cs
  let (day, cs) ← fixedNumber? 2 cs
  let cs ← (char? 'T' cs).or ((char? 't' cs).or (char? ' ' cs))
  let (hour, cs) ← fixedNumber? 2 cs
  let cs ← char? ':' cs
  let (minute, cs) ← fixedNumber? 2 cs
  let cs ← char? ':' cs
  let (second, cs) ← fixedNumber? 2 cs
  let (nanos, cs) ← fraction? cs
  let (offset, cs) ← offset? cs
  if cs.isEmpty && offset.natAbs < 86400 then
    Civil.instant? { date := { year, month, day }, hour, minute, second, nanos } offset
  else none

/-- A year of the plain form. -/
def plainYear? (cs : List Char) : Option (Int × List Char) :=
  match Text.trimStart cs with
  | '-' :: rest => (number? rest.length rest).map fun (n, rest) => (-(n : Int), rest)
  | '+' :: rest => (number? rest.length rest).map fun (n, rest) => ((n : Int), rest)
  | rest => (number? 4 rest).map fun (n, rest) => ((n : Int), rest)

/-- A field of the plain form other than the year. -/
def plainField? (cs : List Char) : Option (Nat × List Char) := number? 2 (Text.trimStart cs)

/-- The years of the calendar. -/
def isCalendarYear (year : Int) : Bool := -262143 ≤ year && year ≤ 262142

/-- The plain form. -/
def plain? (cs : List Char) : Option Instant := do
  let (year, cs) ← plainYear? cs
  let cs ← char? '-' cs
  let (month, cs) ← plainField? cs
  let cs ← char? '-' cs
  let (day, cs) ← plainField? cs
  let cs ← char? 'T' cs
  let (hour, cs) ← plainField? cs
  let cs ← char? ':' cs
  let (minute, cs) ← plainField? cs
  let cs ← char? ':' cs
  let (second, cs) ← plainField? cs
  let (nanos, cs) ← fraction? cs
  if cs.isEmpty && isCalendarYear year then
    Civil.instant? { date := { year, month, day }, hour, minute, second, nanos } 0
  else none

end Timestamp

/-- The instant of a timestamp in either form. -/
def Instant.ofText? (text : String) : Option Instant :=
  let cs := Text.trim text.toList
  (Timestamp.strict? cs).or (Timestamp.plain? cs)

end TriggerWatch
