import StatementTable.Json.Literal

/-!
# From characters to tokens

The scanner is a machine that takes one character at a time, so that a text is scanned by a fold
and the scan of a concatenation is the composition of scans.  It accepts every well-formed
numeral and string.  Whether a numeral is in range and whether the surrogates of a string are
paired is recorded in the token, and it is for the reader of the tokens to insist on it.
-/

namespace StatementTable.Json

/-- A token of a JSON text. -/
inductive Token where
  | openArray
  | closeArray
  | openObject
  | closeObject
  | colon
  | comma
  | null
  | bool (b : Bool)
  /-- A numeral, with its value if it is in range. -/
  | number (value : Option Number)
  /-- A string, with its text if its surrogates are paired. -/
  | string (text : Option String)
deriving DecidableEq, Repr

/-- A piece of a string: a character of the text, or a code unit given by an escape. -/
inductive Piece where
  | char (c : Char)
  | unit (n : Nat)
deriving DecidableEq, Repr

namespace Piece

/-- Whether a code unit is the first half of a pair. -/
def isHigh (n : Nat) : Bool :=
  0xD800 ≤ n && n < 0xDC00

/-- Whether a code unit is the second half of a pair. -/
def isLow (n : Nat) : Bool :=
  0xDC00 ≤ n && n < 0xE000

/-- The character that a pair of code units stands for. -/
def pair (high low : Nat) : Char :=
  Char.ofNat (0x10000 + (high - 0xD800) * 0x400 + (low - 0xDC00))

/-- The characters that pieces stand for, provided that every half has its other half. -/
def join : List Piece → Option (List Char)
  | [] => some []
  | .char c :: rest => (join rest).map (c :: ·)
  | .unit n :: .unit m :: rest =>
    if isHigh n then
      if isLow m then (join rest).map (pair n m :: ·) else none
    else if isLow n then none
    else (join (.unit m :: rest)).map (Char.ofNat n :: ·)
  | .unit n :: rest =>
    if isHigh n || isLow n then none else (join rest).map (Char.ofNat n :: ·)

end Piece

namespace Token

def ofWord (letters : List Char) : Option Token :=
  if letters = ['t', 'r', 'u', 'e'] then some (.bool true)
  else if letters = ['f', 'a', 'l', 's', 'e'] then some (.bool false)
  else if letters = ['n', 'u', 'l', 'l'] then some .null
  else none

def ofNumeral (cs : List Char) : Option Token :=
  (Literal.read cs).map fun l => .number l.value

def ofPieces (pieces : List Piece) : Token :=
  .string ((Piece.join pieces).map String.ofList)

/-- The token that a single character is. -/
def ofPunctuation : Char → Option Token
  | '[' => some .openArray
  | ']' => some .closeArray
  | '\x7b' => some .openObject
  | '\x7d' => some .closeObject
  | ':' => some .colon
  | ',' => some .comma
  | _ => none

end Token

def isSpace (c : Char) : Bool :=
  c == ' ' || c == '\t' || c == '\n' || c == '\r'

/-- The characters of which numerals are made. -/
def isNumeral (c : Char) : Bool :=
  c.isDigit || c == '-' || c == '+' || c == '.' || c == 'e' || c == 'E'

def hexDigit? (c : Char) : Option Nat :=
  if c.isDigit then some (c.toNat - '0'.toNat)
  else if 'a' ≤ c ∧ c ≤ 'f' then some (c.toNat - 'a'.toNat + 10)
  else if 'A' ≤ c ∧ c ≤ 'F' then some (c.toNat - 'A'.toNat + 10)
  else none

/-- The character that a one-letter escape stands for. -/
def escaped? : Char → Option Char
  | '"' => some '"'
  | '\\' => some '\\'
  | '/' => some '/'
  | 'b' => some '\x08'
  | 'f' => some '\x0c'
  | 'n' => some '\n'
  | 'r' => some '\r'
  | 't' => some '\t'
  | _ => none

/-- What the scanner is in the middle of.  Lists are in reverse. -/
inductive Scanner.Mode where
  /-- Between tokens. -/
  | idle
  /-- In a word. -/
  | word (letters : List Char)
  /-- In a numeral. -/
  | numeral (chars : List Char)
  /-- In a string. -/
  | text (pieces : List Piece)
  /-- In a string, just after a backslash. -/
  | escape (pieces : List Piece)
  /-- In a string, among the four digits of a code unit. -/
  | unit (pieces : List Piece) (count value : Nat)
deriving Repr

/-- The state of the scanner: its mode, and the tokens so far in reverse. -/
structure Scanner where
  mode : Scanner.Mode
  tokens : List Token
deriving Repr

namespace Scanner

def start : Scanner := ⟨.idle, []⟩

/-- Takes a character between tokens. -/
def stepIdle (tokens : List Token) (c : Char) : Option Scanner :=
  if isSpace c then some ⟨.idle, tokens⟩
  else if c = '"' then some ⟨.text [], tokens⟩
  else if c.isDigit || c == '-' then some ⟨.numeral [c], tokens⟩
  else if c.isAlpha then some ⟨.word [c], tokens⟩
  else (Token.ofPunctuation c).map fun token => ⟨.idle, token :: tokens⟩

def step (s : Scanner) (c : Char) : Option Scanner :=
  match s.mode with
  | .idle => stepIdle s.tokens c
  | .word letters =>
    if c.isAlpha then some ⟨.word (c :: letters), s.tokens⟩
    else (Token.ofWord letters.reverse).bind fun token => stepIdle (token :: s.tokens) c
  | .numeral chars =>
    if isNumeral c then some ⟨.numeral (c :: chars), s.tokens⟩
    else (Token.ofNumeral chars.reverse).bind fun token => stepIdle (token :: s.tokens) c
  | .text pieces =>
    if c = '"' then some ⟨.idle, Token.ofPieces pieces.reverse :: s.tokens⟩
    else if c = '\\' then some ⟨.escape pieces, s.tokens⟩
    else if c.toNat < 0x20 then none
    else some ⟨.text (.char c :: pieces), s.tokens⟩
  | .escape pieces =>
    if c = 'u' then some ⟨.unit pieces 0 0, s.tokens⟩
    else (escaped? c).map fun c => ⟨.text (.char c :: pieces), s.tokens⟩
  | .unit pieces count value =>
    (hexDigit? c).map fun digit =>
      if count < 3 then ⟨.unit pieces (count + 1) (value * 16 + digit), s.tokens⟩
      else ⟨.text (.unit (value * 16 + digit) :: pieces), s.tokens⟩

/-- The tokens when the text ends. -/
def finish (s : Scanner) : Option (List Token) :=
  match s.mode with
  | .idle => some s.tokens.reverse
  | .word letters => (Token.ofWord letters.reverse).map fun token => (token :: s.tokens).reverse
  | .numeral chars =>
    (Token.ofNumeral chars.reverse).map fun token => (token :: s.tokens).reverse
  | .text _ | .escape _ | .unit _ _ _ => none

end Scanner

def scanChars (cs : List Char) : Option (List Token) :=
  (cs.foldlM Scanner.step Scanner.start).bind Scanner.finish

def scan (text : String) : Option (List Token) :=
  scanChars text.toList

end StatementTable.Json
