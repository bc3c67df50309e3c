import TriggerWatch.Time.Civil

/-!
# Writing timestamps

An instant is written in universal time with six digits after the second, the rest cut off. Years
outside 0 to 9999 carry a sign. A leap second is written as second 60.

## Main definitions

- `Instant.format` — the timestamp of an instant
-/

namespace TriggerWatch

/-- A number with at least `width` digits, zeros in front. -/
def padded (width : Nat) (n : Nat) : List Char :=
  let digits := Nat.toDigits 10 n
  List.replicate (width - digits.length) '0' ++ digits

/-- The text of a year. -/
def yearText (year : Int) : List Char :=
  if 0 ≤ year ∧ year ≤ 9999 then padded 4 year.toNat
  else (if year < 0 then '-' else '+') :: padded 4 year.natAbs

/-- The timestamp of an instant. -/
def Instant.format (t : Instant) : String :=
  let c := t.civil
  String.ofList <|
    yearText c.date.year ++ '-' :: padded 2 c.date.month ++ '-' :: padded 2 c.date.day ++ 'T' ::
      padded 2 c.hour ++ ':' :: padded 2 c.minute ++ ':' :: padded 2 c.second ++ '.' ::
      padded 6 (c.nanos / 1000) ++ ['Z']

end TriggerWatch
