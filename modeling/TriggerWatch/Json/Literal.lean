import TriggerWatch.Json.Basic
import TriggerWatch.Decimal.Read

/-!
# Number literals

The value of a number literal of a JSON text. Digits are collected into a 64-bit significand for as
long as they fit. A literal without fraction and exponent that fits is a whole number. Any other is
the significand times or divided by a power of ten, with one rounding for each of the two, so its
last bits may differ from the nearest number. Digits that no longer fit are dropped: one before the
point raises the exponent by one, one after the point counts for nothing.

## Main definitions

- `Json.Literal` — a number literal taken apart
- `Json.Literal.number?` — its value, if it has one
-/

namespace TriggerWatch.Json

open Decimal (digit?)

/-- A number literal taken apart. -/
structure Literal where
  /-- Whether a minus sign stands in front. -/
  negative : Bool
  /-- The digits before the point. -/
  whole : List Char
  /-- The digits after the point, if there is a point. -/
  part : Option (List Char)
  /-- The sign and the digits of the exponent, if there is one. -/
  power : Option (Bool × List Char)
deriving DecidableEq, Repr

/-- The largest significand, a number of 64 bits. -/
def maxSignificand : Nat := 0xffffffffffffffff

/-- The largest exponent that is counted exactly, a number of 31 bits. -/
def maxPower : Nat := 0x7fffffff

/-- Collect digits into `n` while the result stays within `limit`: the number, how many digits were
taken, and the digits left over. -/
def collect (limit : Nat) (n : Nat) : List Char → Nat × Nat × List Char
  | [] => (n, 0, [])
  | c :: rest =>
    let next := 10 * n + (c.toNat - '0'.toNat)
    if next ≤ limit then
      let (m, taken, left) := collect limit next rest
      (m, taken + 1, left)
    else (n, 0, c :: rest)

/-- The floating-point number nearest to a power of ten. -/
def tenTo (n : Nat) : Float := Float.ofScientific 1 false n

/-- Divide by powers of ten up to `10 ^ 308` until the exponent is used up. -/
def scaleDown : Nat → Float → Nat → Float
  | 0, x, _ => x
  | fuel + 1, x, power =>
    if power ≤ 308 then x / tenTo power
    else if x == 0.0 then x
    else scaleDown fuel (x / tenTo 308) (power - 308)

/-- The significand times a power of ten; none if that is too large for a finite number. -/
def scaled? (significand : Nat) (power : Int) : Option Float :=
  let x := Float.ofNat significand
  if power < 0 then some (scaleDown 4 x power.natAbs)
  else if 308 < power then (if significand = 0 then some x else none)
  else
    let y := x * tenTo power.toNat
    if y.isInf then none else some y

/-- The sum of an exponent and a starting exponent, kept within 32 bits. -/
def saturated (n : Int) : Int := max (-0x80000000) (min n 0x7fffffff)

/-- The magnitude of a literal with a fraction or an exponent, or with too many digits. -/
def Literal.magnitude? (l : Literal) : Option Float :=
  let (head, _, dropped) := collect maxSignificand 0 l.whole
  let (significand, taken, _) := collect maxSignificand head (l.part.getD [])
  let start := Int.ofNat dropped.length - Int.ofNat taken
  match l.power with
  | none => scaled? significand start
  | some (down, digits) =>
    let (power, _, beyond) := collect maxPower 0 digits
    if beyond.isEmpty then
      scaled? significand (saturated (if down then start - power else start + power))
    else if significand ≠ 0 && !down then none
    else some 0.0

/-- The value of a literal; none if it is too large for a finite number. Zero with a minus sign is
the negative zero. -/
def Literal.number? (l : Literal) : Option Number :=
  let (whole, _, dropped) := collect maxSignificand 0 l.whole
  let signed (x : Float) : Float := if l.negative then -x else x
  if l.part.isNone && l.power.isNone && dropped.isEmpty then
    if !l.negative then some (.int whole)
    else if 0 < whole && whole ≤ 0x8000000000000000 then some (.int (-whole))
    else some (.float (-(Float.ofNat whole)))
  else l.magnitude?.map fun x => .float (signed x)

end TriggerWatch.Json
