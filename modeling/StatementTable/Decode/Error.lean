import StatementTable.Json.Printer
import StatementTable.Row
import StatementTable.Text.Quoted

/-!
# Why a value does not decode

A decoder that meets a value of the wrong shape reports what it found and what it expected there.
The wording of the reports is kept in this module.
-/

namespace StatementTable

open Json (Value Number)

/-- What a decoder expects in some place. -/
inductive Expected where
  | node
  | location
  | position
  | natural
  | declarator
  | program
  | parameters
  | table
  | row
  | sequence
  | text
  | flag
  | tag
  | label
  | unit
deriving DecidableEq, Repr

def Expected.phrase : Expected → String
  | .node => "struct SyntaxNode"
  | .location => "struct SourceLocation"
  | .position => "struct Position"
  | .natural => "usize"
  | .declarator => "struct VariableDeclarator"
  | .program => "struct Program"
  | .parameters => "struct FlattenParams"
  | .table => "struct RowTable"
  | .row => "struct Row"
  | .sequence => "a sequence"
  | .text => "a string"
  | .flag => "a boolean"
  | .tag => "variant identifier"
  | .label => "string or map"
  | .unit => "unit"

def backquoted (s : String) : String :=
  "`" ++ s ++ "`"

/-- The words for a number that is found somewhere. -/
def describeNumber (n : Number) : String :=
  let sort := match n with
    | .natural _ | .negSucc _ => "integer "
    | .real _ _ => "floating point "
  sort ++ backquoted (String.ofList n.write)

/-- The words for a value that is found somewhere. -/
def describe : Value → String
  | .null => "null"
  | .bool true => "boolean `true`"
  | .bool false => "boolean `false`"
  | .number n => describeNumber n
  | .string s => "string " ++ Text.quote s
  | .array _ => "sequence"
  | .object _ => "map"

/-- Where a structure stands: in the document itself or in a list or structure of it, or among
the fields that the kind of a node determines. -/
inductive Enclosure where
  | outer
  | inner
deriving DecidableEq, Repr

/-- Why a value does not decode. -/
inductive DecodeError where
  /-- A field is missing. -/
  | missingField (name : String)
  /-- The value is of the wrong type. -/
  | wrongType (found : Value) (expected : Expected)
  /-- The integer `-(n + 1)` stands in the place of a natural number. -/
  | negative (n : Nat)
  /-- An array has too few items for the fields of a structure. -/
  | tooShort (length : Nat) (expected : Expected) (fields : Nat)
  /-- An array has too many items for the fields of a structure. -/
  | tooLong (enclosure : Enclosure) (length fields : Nat)
  /-- A text is not the wording of a label. -/
  | unknownLabel (text : String)
  /-- An object in the place of a label does not have a single member. -/
  | notSingleMember
deriving Repr

namespace DecodeError

/-- So many elements, in words. -/
def countedElements (n : Nat) : String :=
  toString n ++ (if n = 1 then " element" else " elements")

def message : DecodeError → String
  | .missingField name => "missing field " ++ backquoted name
  | .wrongType found expected =>
    "invalid type: " ++ describe found ++ ", expected " ++ expected.phrase
  | .negative n =>
    "invalid value: " ++ describeNumber (.negSucc n) ++ ", expected " ++
      Expected.natural.phrase
  | .tooShort length expected fields =>
    "invalid length " ++ toString length ++ ", expected " ++ expected.phrase ++ " with " ++
      countedElements fields
  | .tooLong .outer length _ =>
    "invalid length " ++ toString length ++ ", expected fewer elements in array"
  | .tooLong .inner length fields =>
    "invalid length " ++ toString length ++ ", expected " ++ countedElements fields ++
      " in sequence"
  | .unknownLabel text =>
    "unknown variant " ++ backquoted text ++ ", expected one of " ++
      ", ".intercalate (Label.all.map fun label => backquoted label.text)
  | .notSingleMember => "invalid value: map, expected map with a single key"

end DecodeError

/-- The result of decoding. -/
abbrev Decoded (α : Type) := Except DecodeError α

end StatementTable
