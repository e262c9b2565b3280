/-!
# Magnitudes with 53 significant bits

A magnitude is a nonnegative number `mantissa * 2 ^ exponent`, kept in the form in which the
double-precision format stores it.  Every operation is the exact operation followed by one
rounding to the nearest magnitude, halves going to the even mantissa, so the whole arithmetic is
carried out on natural numbers.
-/

namespace StatementTable

/-- The nonnegative number `mantissa * 2 ^ exponent`. -/
structure Magnitude where
  mantissa : Nat
  exponent : Int
deriving DecidableEq, Repr

namespace Magnitude

/-- Number of significant bits of a mantissa. -/
def precision : Nat := 53

/-- Exponent of the smallest positive magnitude. -/
def leastExponent : Int := -1074

/-- Exponent of the largest magnitude. -/
def greatestExponent : Int := 971

def zero : Magnitude := ⟨0, leastExponent⟩

/-- The quotient `num / den` rounded to the nearest natural number, halves to even. -/
def roundHalfEven (num den : Nat) : Nat :=
  let quotient := num / den
  let twice := 2 * (num % den)
  if twice < den then quotient
  else if den < twice then quotient + 1
  else quotient + quotient % 2

/-- Numerator and denominator of `num / den / 2 ^ shift`. -/
def shiftDown (num den : Nat) (shift : Int) : Nat × Nat :=
  if 0 ≤ shift then (num, den <<< shift.toNat)
  else (num <<< (-shift).toNat, den)

/-- The exponent at which the integral part of `num / den` has 53 bits, or the least exponent
when the quotient is too small for that. -/
def exponentFor (num den : Nat) : Int :=
  let guess : Int := (num.log2 : Int) - (den.log2 : Int) - 52
  let (n, d) := shiftDown num den guess
  let exact := if n / d < 1 <<< (precision - 1) then guess - 1 else guess
  max leastExponent exact

/-- The magnitude nearest to `num / den`, or `none` when it is beyond the largest one. -/
def nearest (num den : Nat) : Option Magnitude :=
  if num = 0 then some zero
  else
    let exponent := exponentFor num den
    let (n, d) := shiftDown num den exponent
    let mantissa := roundHalfEven n d
    let rounded : Magnitude :=
      if mantissa = 1 <<< precision then ⟨1 <<< (precision - 1), exponent + 1⟩
      else ⟨mantissa, exponent⟩
    if greatestExponent < rounded.exponent then none else some rounded

def fraction (x : Magnitude) : Nat × Nat :=
  if 0 ≤ x.exponent then (x.mantissa <<< x.exponent.toNat, 1)
  else (x.mantissa, 1 <<< (-x.exponent).toNat)

/-- The magnitude nearest to a natural number. -/
def ofNat (n : Nat) : Option Magnitude :=
  nearest n 1

/-- The product, rounded. -/
def mul (x y : Magnitude) : Option Magnitude :=
  nearest (x.fraction.1 * y.fraction.1) (x.fraction.2 * y.fraction.2)

/-- The quotient, rounded.  The divisor must not be zero. -/
def div (x y : Magnitude) : Option Magnitude :=
  nearest (x.fraction.1 * y.fraction.2) (x.fraction.2 * y.fraction.1)

/-- The largest power of ten that is a magnitude. -/
def greatestPower : Nat := 308

/-- Division by a power of ten, one factor of at most `10 ^ 308` after another.  Each factor is
rounded to a magnitude before it divides. -/
def divPowerOfTen (x : Magnitude) (power : Nat) : Option Magnitude :=
  if power ≤ greatestPower then do
    x.div (← ofNat (Nat.pow 10 power))
  else if x.mantissa = 0 then some x
  else do
    let next ← x.div (← ofNat (Nat.pow 10 greatestPower))
    divPowerOfTen next (power - greatestPower)
termination_by power
decreasing_by simp_all [greatestPower]; omega

/-- Multiplication by a power of ten, which is rounded to a magnitude first. -/
def mulPowerOfTen (x : Magnitude) (power : Nat) : Option Magnitude :=
  if power ≤ greatestPower then do
    x.mul (← ofNat (Nat.pow 10 power))
  else if x.mantissa = 0 then some x
  else none

/-- The magnitude read from a decimal literal with the given significand and power of ten: the
significand is rounded to a magnitude and then scaled by the power. -/
def ofScientific (significand : Nat) (power : Int) : Option Magnitude := do
  let x ← ofNat significand
  if 0 ≤ power then x.mulPowerOfTen power.toNat else x.divPowerOfTen (-power).toNat

end Magnitude

end StatementTable
