import TriggerWatch.Decimal.Binary

/-!
# Decimals with fixed places

The exact value of a floating-point number rounded to a given number of places, a half going to the
even neighbour.

## Main definitions

- `Decimal.roundDiv` — a quotient of natural numbers rounded to the nearest, halves to even
- `Decimal.fixed` — a finite number with a given number of places
-/

namespace TriggerWatch.Decimal

/-- The nearest natural number to `numerator / denominator`; a half goes to the even neighbour. -/
def roundDiv (numerator denominator : Nat) : Nat :=
  let quotient := numerator / denominator
  let twice := 2 * (numerator % denominator)
  if twice < denominator then quotient
  else if denominator < twice then quotient + 1
  else if quotient % 2 = 0 then quotient
  else quotient + 1

/-- The magnitude of a number with `places` decimal places. -/
def fixedMagnitude (places : Nat) (b : Binary) : String :=
  let unit := Nat.pow 10 places
  let rounded := roundDiv (b.numerator * unit) b.denominator
  let whole := toString (rounded / unit)
  if places = 0 then whole
  else
    let part := (Nat.toDigits 10 (rounded % unit))
    whole ++ "." ++ String.ofList (List.replicate (places - part.length) '0' ++ part)

/-- A finite number with `places` decimal places; a minus sign stands wherever the sign bit is set. -/
def fixed (places : Nat) (x : Float) : String :=
  (if isNegative x then "-" else "") ++ fixedMagnitude places (Binary.ofFloat x)

end TriggerWatch.Decimal
