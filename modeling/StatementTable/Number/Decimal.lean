import StatementTable.Number.Magnitude
import StatementTable.Text.Trailing

/-!
# Shortest decimals

A decimal is `digits * 10 ^ exponent`.  `Decimal.shortest` finds, for a magnitude, the decimal
with the fewest digits whose nearest magnitude is the given one; of two such decimals of the same
length it takes the nearer one.  `Decimal.write` sets a decimal in type, positionally inside a
range of exponents and in scientific notation outside it.
-/

namespace StatementTable

/-- The nonnegative number `digits * 10 ^ exponent`. -/
structure Decimal where
  digits : Nat
  exponent : Int
deriving DecidableEq, Repr

namespace Decimal

def fraction (d : Decimal) : Nat × Nat :=
  if 0 ≤ d.exponent then (d.digits * Nat.pow 10 d.exponent.toNat, 1)
  else (d.digits, Nat.pow 10 (-d.exponent).toNat)

def nearest (d : Decimal) : Option Magnitude :=
  Magnitude.nearest d.fraction.1 d.fraction.2

def digitCount (n : Nat) : Nat :=
  (Nat.toDigits 10 n).length

/-- The power of ten of the leading digit of the positive quotient `num / den`. -/
def leadingPower (num den : Nat) : Int :=
  if den ≤ num then (digitCount (num / den) : Int) - 1
  else -((digitCount ((den - 1) / num) : Nat) : Int)

/-- Whether a decimal lies closer to `num / den` than another one, the even one in a tie. -/
def closer (num den : Nat) (a b : Decimal) : Bool :=
  let gap (d : Decimal) : Nat :=
    let (n, m) := d.fraction
    (Int.natAbs ((n * den : Nat) - (num * m : Nat) : Int))
  let scale (d : Decimal) : Nat := d.fraction.2
  let left := gap a * scale b
  let right := gap b * scale a
  left < right || (left == right && a.digits % 2 == 0)

/-- The decimals with digits down to `10 ^ power` just below and just above `num / den`. -/
def neighbours (num den : Nat) (power : Int) : Decimal × Decimal :=
  let floor := if 0 ≤ power then num / (den * Nat.pow 10 power.toNat)
    else num * Nat.pow 10 (-power).toNat / den
  (⟨floor, power⟩, ⟨floor + 1, power⟩)

/-- The decimal of `length` digits that reads back as `x`, when there is one. -/
def ofLength (x : Magnitude) (length : Nat) : Option Decimal :=
  let (num, den) := x.fraction
  let (below, above) := neighbours num den (leadingPower num den - (length : Int) + 1)
  match decide (below.nearest = some x), decide (above.nearest = some x) with
  | true, true => some (if closer num den below above then below else above)
  | true, false => some below
  | false, true => some above
  | false, false => none

/-- The shortest decimal that reads back as a magnitude. -/
def shortest (x : Magnitude) : Decimal :=
  if x.mantissa = 0 then ⟨0, 0⟩
  else (((List.range 17).map (· + 1)).findSome? (ofLength x)).getD ⟨0, 0⟩

/-- How decimals are written. -/
structure Style where
  /-- The least power of the leading digit that is written positionally. -/
  leastPositional : Int
  /-- The greatest power of the leading digit that is written positionally. -/
  greatestPositional : Int
  /-- The least number of digits of an exponent. -/
  exponentWidth : Nat

def zeros (count : Nat) : List Char :=
  List.replicate count '0'

/-- Digits with the point after the digit of power zero, and at least one digit on either side
of it.  The first digit has the given power. -/
def positional (digits : List Char) (power : Int) : List Char :=
  if power < 0 then
    '0' :: '.' :: zeros (-power - 1).toNat ++ digits
  else
    let whole := power.toNat + 1
    if digits.length ≤ whole then
      digits ++ zeros (whole - digits.length) ++ ['.', '0']
    else
      digits.take whole ++ '.' :: digits.drop whole

/-- Digits with the point after the first one, followed by the power of that digit. -/
def scientific (style : Style) (digits : List Char) (power : Int) : List Char :=
  let significand := match digits with
    | [] => ['0']
    | [d] => [d]
    | d :: rest => d :: '.' :: rest
  let exponent := Nat.toDigits 10 power.natAbs
  significand ++ 'e' :: (if power < 0 then '-' else '+') ::
    zeros (style.exponentWidth - exponent.length) ++ exponent

def write (style : Style) (d : Decimal) : String :=
  if d.digits = 0 then "0.0"
  else
    let written := Nat.toDigits 10 d.digits
    let power := (written.length : Int) - 1 + d.exponent
    let digits := Text.dropTrailing (· == '0') written
    String.ofList <|
      if style.leastPositional ≤ power ∧ power ≤ style.greatestPositional then
        positional digits power
      else
        scientific style digits power

end Decimal

end StatementTable
