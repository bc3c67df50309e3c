/-!
# Floating-point numbers taken apart

A positive finite binary64 number is a natural mantissa times a power of two. Everything exact that
the library says about such a number (its shortest decimal, its rounding to fixed places) is said
of this pair, in natural-number arithmetic.

## Main definitions

- `Decimal.Binary` — a mantissa, a power of two, and whether the neighbour below is nearer
- `Decimal.Binary.ofFloat` — the parts of the magnitude of a finite number
- `Decimal.isNegative` — the sign bit
-/

namespace TriggerWatch.Decimal

/-- The number `mantissa · 2 ^ exponent`. -/
structure Binary where
  /-- The integer factor. -/
  mantissa : Nat
  /-- The power of two. -/
  exponent : Int
  /-- Whether the next smaller number is half as far away as the next larger one. -/
  nearerBelow : Bool
deriving DecidableEq, Repr

/-- The sign bit; it is also set on a negative zero. -/
def isNegative (x : Float) : Bool := x.toBits.toNat / 0x8000000000000000 == 1

/-- The number of fractions of one exponent; a fraction has 52 bits. -/
def fractionSize : Nat := 0x10000000000000

/-- The parts of the magnitude of a finite number. -/
def Binary.ofFloat (x : Float) : Binary :=
  let bits := x.toBits.toNat
  let biased := bits / fractionSize % 0x800
  let fraction := bits % fractionSize
  if biased = 0 then
    { mantissa := fraction, exponent := -1074, nearerBelow := false }
  else
    { mantissa := fractionSize + fraction
      exponent := Int.ofNat biased - 1075
      nearerBelow := fraction = 0 && 1 < biased }

namespace Binary

/-- The numerator of the number as a fraction. -/
def numerator (b : Binary) : Nat := b.mantissa * Nat.pow 2 b.exponent.toNat

/-- The denominator of the number as a fraction, a power of two. -/
def denominator (b : Binary) : Nat := Nat.pow 2 (-b.exponent).toNat

end Binary

end TriggerWatch.Decimal
