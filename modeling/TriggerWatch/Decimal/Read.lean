/-!
# Reading decimals

Numeric text: an optional sign, digits with at most one point and at least one digit, and an
optional exponent. The words `inf`, `infinity` and `nan` are numeric text too, in any case. The
number is the one nearest to the written value, so a large one becomes infinite and a small one
zero.

## Main definitions

- `Decimal.Numeral` — numeric text taken apart
- `Decimal.Numeral.ofChars?` — the reader of numeric text without its sign
- `Decimal.Numeral.toFloat` — the nearest floating-point number
- `Decimal.readFinite?` — the finite number that a text denotes
-/

namespace TriggerWatch.Decimal

/-- The digit that a character stands for. -/
def digit? (c : Char) : Option Nat := if c.isDigit then some (c.toNat - '0'.toNat) else none

/-- The number written by a run of digits, after a number already read. -/
def natOfDigits (start : Nat) (digits : List Char) : Nat :=
  digits.foldl (fun n c => 10 * n + (c.toNat - '0'.toNat)) start

/-- An unsigned decimal `coefficient · 10 ^ scale`. -/
structure Numeral where
  /-- All digits, before and after the point, as one number. -/
  coefficient : Nat
  /-- The exponent less the number of digits after the point. -/
  scale : Int
deriving DecidableEq, Repr

/-- A run of digits with an optional sign, nothing after it. -/
def exponent? (cs : List Char) : Option Int :=
  let unsigned (ds : List Char) : Option Nat :=
    if ds.isEmpty || !ds.all Char.isDigit then none else some (natOfDigits 0 ds)
  match cs with
  | '-' :: ds => (unsigned ds).map fun n => -(Int.ofNat n)
  | '+' :: ds => (unsigned ds).map Int.ofNat
  | ds => (unsigned ds).map Int.ofNat

/-- The digits after the point, if there is a point, and what follows them. -/
def fraction : List Char → List Char × List Char
  | '.' :: rest => (rest.takeWhile Char.isDigit, rest.dropWhile Char.isDigit)
  | rest => ([], rest)

/-- Read digits, an optional point and an optional exponent. At least one digit is needed, on
either side of the point. -/
def Numeral.ofChars? (cs : List Char) : Option Numeral :=
  let whole := cs.takeWhile Char.isDigit
  let (part, rest) := fraction (cs.dropWhile Char.isDigit)
  if whole.isEmpty && part.isEmpty then none
  else
    let coefficient := natOfDigits (natOfDigits 0 whole) part
    let scale := -(Int.ofNat part.length)
    match rest with
    | [] => some { coefficient, scale }
    | mark :: rest =>
      if mark = 'e' || mark = 'E' then
        (exponent? rest).map fun e => { coefficient, scale := scale + e }
      else none

/-- The largest power of ten of a leading digit that is looked at; beyond it every number is
infinite, and below its negative every number is zero. -/
def farPower : Int := 400

/-- The floating-point number nearest to a numeral. -/
def Numeral.toFloat (n : Numeral) : Float :=
  let power := n.scale + Int.ofNat (Nat.toDigits 10 n.coefficient).length
  if n.coefficient = 0 || power < -farPower then 0.0
  else if farPower < power then 1.0 / 0.0
  else Float.ofScientific n.coefficient (n.scale < 0) n.scale.natAbs

/-- The finite number denoted by a text with an optional sign. Words for infinite and undefined
numbers, and digits too large for a finite number, denote none. -/
def readFinite? (cs : List Char) : Option Float :=
  let finite (x : Float) : Option Float := if x.isFinite then some x else none
  match cs with
  | '-' :: rest => (Numeral.ofChars? rest).bind fun n => finite (-n.toFloat)
  | '+' :: rest => (Numeral.ofChars? rest).bind fun n => finite n.toFloat
  | rest => (Numeral.ofChars? rest).bind fun n => finite n.toFloat

end TriggerWatch.Decimal
