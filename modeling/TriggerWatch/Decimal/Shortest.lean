import TriggerWatch.Decimal.Binary

/-!
# Shortest decimals

The decimal of a floating-point number has the fewest digits among the decimals that read back as
that number; of those with as many digits it is the nearest. The search walks decimal grids from
coarse to fine. On each grid it looks at the two neighbours of the number, and it stops at the
first grid where one of them lies in the interval of reals that round to the number. That interval
includes its ends exactly when the mantissa is even.

## Main definitions

- `Decimal.Digits` — a coefficient scaled by a power of ten
- `Decimal.Tie` — what happens when both neighbours are equally near
- `Decimal.shortest` — the shortest decimal of a positive finite number
-/

namespace TriggerWatch.Decimal

/-- The decimal `coefficient · 10 ^ scale`. -/
structure Digits where
  /-- The significant digits as a number. -/
  coefficient : Nat
  /-- The power of ten of the last digit. -/
  scale : Int
deriving DecidableEq, Repr

/-- Which of two equally near decimals is taken. -/
inductive Tie where
  /-- The one whose last digit is even. -/
  | toEven
  /-- The larger one. -/
  | up
deriving DecidableEq, Repr

/-- The number of decimal digits of a natural number; zero has one. -/
def digitCount (n : Nat) : Nat := (Nat.toDigits 10 n).length

/-- The power of ten of the leading digit of a positive fraction whose reciprocal is below
`10 ^ 400`. -/
def leadingPower (numerator denominator : Nat) : Int :=
  (digitCount (Nat.pow 10 400 * numerator / denominator) : Int) - 401

/-- Remove zeros at the end of the coefficient. `fuel` bounds the number of zeros. -/
def Digits.strip : Nat → Digits → Digits
  | 0, d => d
  | fuel + 1, d =>
    if d.coefficient ≠ 0 ∧ d.coefficient % 10 = 0 then
      strip fuel { coefficient := d.coefficient / 10, scale := d.scale + 1 }
    else d

/-- The neighbour of the number on the grid of step `10 ^ scale` that reads back as the number, the
nearer one if both do. The number and the ends of its interval are `4m`, `4m - 2` (or `4m - 1`) and
`4m + 2` units of a quarter of the last binary place. -/
def nearestOnGrid? (tie : Tie) (b : Binary) (scale : Int) : Option Nat :=
  let quarter := b.exponent - 2
  let unit := Nat.pow 2 quarter.toNat * Nat.pow 10 (-scale).toNat
  let step := Nat.pow 2 (-quarter).toNat * Nat.pow 10 scale.toNat
  let value := 4 * b.mantissa * unit
  let low := (4 * b.mantissa - if b.nearerBelow then 1 else 2) * unit
  let high := (4 * b.mantissa + 2) * unit
  let closed := b.mantissa % 2 = 0
  let below := value / step
  let above := below + 1
  let belowFits := if closed then low ≤ below * step else low < below * step
  let aboveFits := if closed then above * step ≤ high else above * step < high
  if below * step = value then some below
  else if belowFits ∧ aboveFits then
    let down := value - below * step
    let up := above * step - value
    if down < up then some below
    else if up < down then some above
    else match tie with
      | .up => some above
      | .toEven => if below % 2 = 0 then some below else some above
  else if belowFits then some below
  else if aboveFits then some above
  else none

/-- The shortest decimal that reads back as the number. Seventeen digits always suffice. -/
def shortest (tie : Tie) (b : Binary) : Digits :=
  let lead := leadingPower b.numerator b.denominator
  let found := (List.range 17).findSome? fun (i : Nat) =>
    let scale := lead - i
    (nearestOnGrid? tie b scale).map fun c => Digits.strip 18 { coefficient := c, scale }
  found.getD { coefficient := 0, scale := 0 }

end TriggerWatch.Decimal
