import StatementTable.Json.Value

/-!
# JSON text

A value is written compactly or with one item to a line.  Both forms come from one writer, which
differs only in the blanks that a layout puts between the tokens.  Members are written in the
order in which the object lists them.
-/

namespace StatementTable.Json

/-- A hexadecimal digit, in lower case. -/
def hexDigit (n : Nat) : Char :=
  if n < 10 then Char.ofNat ('0'.toNat + n) else Char.ofNat ('a'.toNat + (n - 10))

/-- A character as it stands in a string.  Quotes, backslashes and control characters are
escaped. -/
def escapeChar (c : Char) : List Char :=
  match c with
  | '"' => ['\\', '"']
  | '\\' => ['\\', '\\']
  | '\x08' => ['\\', 'b']
  | '\x0c' => ['\\', 'f']
  | '\n' => ['\\', 'n']
  | '\r' => ['\\', 'r']
  | '\t' => ['\\', 't']
  | c =>
    if c.toNat < 0x20 then
      ['\\', 'u', '0', '0', hexDigit (c.toNat / 16), hexDigit (c.toNat % 16)]
    else [c]

def writeString (s : String) : List Char :=
  '"' :: s.toList.flatMap escapeChar ++ ['"']

namespace Number

/-- Floating-point numbers have a point, are written positionally from `10 ^ (-5)` to `10 ^ 15`,
and have an exponent of at least two digits otherwise. -/
def style : Decimal.Style :=
  ⟨-5, 15, 2⟩

def write : Number → List Char
  | .natural n => Nat.toDigits 10 n.toNat
  | .negSucc n => '-' :: Nat.toDigits 10 (n + 1)
  | .real negative magnitude =>
    (if negative then ['-'] else []) ++ ((Decimal.shortest magnitude).write style).toList

end Number

/-- The blanks between tokens: none, or a line for each item, indented by so many spaces for each
container around it. -/
inductive Layout where
  | compact
  | lines (indent : Nat)

namespace Layout

/-- What stands before an item at the given depth. -/
def newline (layout : Layout) (depth : Nat) : List Char :=
  match layout with
  | .compact => []
  | .lines indent => '\n' :: List.replicate (indent * depth) ' '

/-- What stands between a key and its value. -/
def colon : Layout → List Char
  | .compact => [':']
  | .lines _ => [':', ' ']

end Layout

namespace Value

mutual

/-- The text of a value inside `depth` containers. -/
def write (layout : Layout) (depth : Nat) : Value → List Char
  | .null => ['n', 'u', 'l', 'l']
  | .bool true => ['t', 'r', 'u', 'e']
  | .bool false => ['f', 'a', 'l', 's', 'e']
  | .number n => n.write
  | .string s => writeString s
  | .array [] => ['[', ']']
  | .array (item :: items) =>
    '[' :: layout.newline (depth + 1) ++ write layout (depth + 1) item ++
      writeItems layout (depth + 1) items ++ layout.newline depth ++ [']']
  | .object [] => ['\x7b', '\x7d']
  | .object ((key, value) :: members) =>
    '\x7b' :: layout.newline (depth + 1) ++ writeString key ++ layout.colon ++
      write layout (depth + 1) value ++ writeMembers layout (depth + 1) members ++
      layout.newline depth ++ ['\x7d']

/-- The items of an array after the first one. -/
def writeItems (layout : Layout) (depth : Nat) : List Value → List Char
  | [] => []
  | item :: items =>
    ',' :: layout.newline depth ++ write layout depth item ++ writeItems layout depth items

/-- The members of an object after the first one. -/
def writeMembers (layout : Layout) (depth : Nat) : List (String × Value) → List Char
  | [] => []
  | (key, value) :: members =>
    ',' :: layout.newline depth ++ writeString key ++ layout.colon ++
      write layout depth value ++ writeMembers layout depth members

end

/-- The text of a value without blanks. -/
def compact (v : Value) : String :=
  String.ofList (v.write .compact 0)

/-- The text of a value with an item to a line, indented by two spaces a level. -/
def pretty (v : Value) : String :=
  String.ofList (v.write (.lines 2) 0)

end Value

end StatementTable.Json
