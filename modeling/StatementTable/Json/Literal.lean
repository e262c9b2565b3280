import StatementTable.Json.Value

/-!
# Number literals

A number literal has an optional minus sign, a whole part without superfluous zeros, and an
optional fraction and exponent.  Its value is an integer when it has neither fraction nor
exponent and fits into 64 bits.  Otherwise the leading digits that fit into 64 bits form a
significand, the remaining whole digits and the exponent form a power of ten, and the value is
the significand scaled by that power.
-/

namespace StatementTable.Json

/-- The parts of a number literal, with the digits as numbers. -/
structure Literal where
  negative : Bool
  whole : List Nat
  fraction : Option (List Nat)
  exponent : Option (Bool × List Nat)
deriving DecidableEq, Repr

namespace Literal

def digitValue (c : Char) : Nat :=
  c.toNat - '0'.toNat

/-- The digits at the front of a list of characters, and what follows them. -/
def splitDigits (cs : List Char) : List Nat × List Char :=
  ((cs.takeWhile Char.isDigit).map digitValue, cs.dropWhile Char.isDigit)

/-- The sign at the front of a literal. -/
def splitSign : List Char → Bool × List Char
  | '-' :: rest => (true, rest)
  | cs => (false, cs)

/-- The sign at the front of an exponent. -/
def splitExponentSign : List Char → Bool × List Char
  | '-' :: rest => (true, rest)
  | '+' :: rest => (false, rest)
  | cs => (false, cs)

/-- A whole part has a digit, and starts with a zero only if the zero is all of it. -/
def isWhole (digits : List Nat) : Bool :=
  match digits with
  | [] => false
  | [_] => true
  | d :: _ => d != 0

/-- The fraction at the front of a list of characters. -/
def splitFraction : List Char → Option (Option (List Nat) × List Char)
  | '.' :: cs =>
    let (digits, rest) := splitDigits cs
    if digits.isEmpty then none else some (some digits, rest)
  | cs => some (none, cs)

/-- The exponent that ends a literal. -/
def readExponent : List Char → Option (Option (Bool × List Nat))
  | [] => some none
  | c :: cs =>
    if c = 'e' ∨ c = 'E' then
      let (negative, cs) := splitExponentSign cs
      let (digits, rest) := splitDigits cs
      if digits.isEmpty || !rest.isEmpty then none else some (some (negative, digits))
    else none

/-- Reads a literal that takes up the whole list of characters. -/
def read (cs : List Char) : Option Literal := do
  let (negative, cs) := splitSign cs
  let (whole, cs) := splitDigits cs
  if isWhole whole then
    let (fraction, cs) ← splitFraction cs
    let exponent ← readExponent cs
    return ⟨negative, whole, fraction, exponent⟩
  else none

/-- Appends digits to a significand for as long as it stays below `2 ^ 64`.  The second component
holds the digits that are left. -/
def absorb : Nat → List Nat → Nat × List Nat
  | n, [] => (n, [])
  | n, d :: ds => if n * 10 + d < UInt64.size then absorb (n * 10 + d) ds else (n, d :: ds)

/-- The number that a list of digits denotes. -/
def ofDigits (digits : List Nat) : Nat :=
  digits.foldl (fun n d => n * 10 + d) 0

/-- The power of ten that an exponent denotes. -/
def exponentValue : Option (Bool × List Nat) → Int
  | none => 0
  | some (false, digits) => ofDigits digits
  | some (true, digits) => -ofDigits digits

/-- The integer of the given sign and absolute value.  A negative zero and integers below
`-2 ^ 63` are floating-point numbers. -/
def integer (negative : Bool) (n : Nat) : Option Number :=
  if negative then
    if 0 < n ∧ n ≤ UInt64.size / 2 then some (.negSucc (n - 1))
    else (Magnitude.ofNat n).map (.real true)
  else some (.natural (UInt64.ofNat n))

/-- The value of a literal, or `none` when it is beyond the largest floating-point number. -/
def value (l : Literal) : Option Number :=
  let (significand, dropped) := absorb 0 l.whole
  if dropped.isEmpty && l.fraction.isNone && l.exponent.isNone then
    integer l.negative significand
  else
    let fraction := l.fraction.getD []
    let (significand, rest) := absorb significand fraction
    let power : Int :=
      (dropped.length : Int) - ((fraction.length - rest.length : Nat) : Int) +
        exponentValue l.exponent
    (Magnitude.ofScientific significand power).map (.real l.negative)

end Literal

end StatementTable.Json
