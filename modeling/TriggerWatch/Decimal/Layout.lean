import TriggerWatch.Decimal.Shortest

/-!
# Layouts of decimals

How a floating-point number is written out: where positional notation ends, whether a whole number
keeps a fraction, and what stands for infinities and for the undefined number.

## Main definitions

- `Decimal.Layout` — the choices of one written form
- `Decimal.Layout.document` — the form inside stored documents
- `Decimal.Layout.message` — the form inside messages
- `Decimal.Layout.render` — a number in a layout
-/

namespace TriggerWatch.Decimal

/-- The choices of one written form of numbers. -/
structure Layout where
  /-- Whether a number whose leading digit has this power of ten is written positionally. -/
  positional : Int → Bool
  /-- Whether a whole number is followed by `.0`. -/
  keepFraction : Bool
  /-- Which of two equally near decimals is taken. -/
  tie : Tie
  /-- The text of positive infinity. -/
  infinity : String
  /-- The text of the undefined number. -/
  undefined : String

/-- Documents always show a fraction or an exponent, and turn to exponents below `10 ^ -5` and from
`10 ^ 16` on. They have no numbers for infinities and for the undefined number. -/
def Layout.document : Layout where
  positional power := -5 ≤ power && power ≤ 15
  keepFraction := true
  tie := .toEven
  infinity := "null"
  undefined := "null"

/-- Messages never use exponents and show a fraction only where there is one. -/
def Layout.message : Layout where
  positional _ := true
  keepFraction := false
  tie := .up
  infinity := "inf"
  undefined := "NaN"

/-- `n` zeros. -/
def zeros (n : Nat) : List Char := List.replicate n '0'

/-- Digits in positional notation, the leading one standing for `10 ^ power`. -/
def positionalDigits (keepFraction : Bool) (digits : List Char) (power : Int) : List Char :=
  if power < 0 then ['0', '.'] ++ zeros (-power - 1).toNat ++ digits
  else
    let whole := power.toNat + 1
    if digits.length ≤ whole then
      digits ++ zeros (whole - digits.length) ++ if keepFraction then ['.', '0'] else []
    else digits.take whole ++ '.' :: digits.drop whole

/-- Digits in exponent notation, with a signed exponent. -/
def exponentDigits (digits : List Char) (power : Int) : List Char :=
  let mantissa := match digits with
    | first :: next :: rest => first :: '.' :: next :: rest
    | short => short
  let sign := if power < 0 then '-' else '+'
  mantissa ++ 'e' :: sign :: Nat.toDigits 10 power.natAbs

/-- The magnitude of a finite number. -/
def Layout.magnitude (l : Layout) (x : Float) : List Char :=
  let b := Binary.ofFloat x
  if b.mantissa = 0 then positionalDigits l.keepFraction ['0'] 0
  else
    let d := shortest l.tie b
    let digits := Nat.toDigits 10 d.coefficient
    let power := d.scale + (digits.length : Int) - 1
    if l.positional power then positionalDigits l.keepFraction digits power
    else exponentDigits digits power

/-- A number in a layout. -/
def Layout.render (l : Layout) (x : Float) : String :=
  if x.isNaN then l.undefined
  else if x.isInf then (if isNegative x && l.infinity == "inf" then "-" else "") ++ l.infinity
  else (if isNegative x then "-" else "") ++ String.ofList (l.magnitude x)

end TriggerWatch.Decimal
