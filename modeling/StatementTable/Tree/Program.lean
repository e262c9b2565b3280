import StatementTable.Failure
import StatementTable.Flatten.Rows
import StatementTable.Json.Builder
import StatementTable.Tree.Decode

/-!
# Reading and flattening programs

A program is given as a JSON value, either an array of statements or an object with a body, or as
the text of such a value.
-/

namespace StatementTable

open Json (Value)

namespace Program

def ofValue (v : Value) : Except Failure Program :=
  match v with
  | .array items =>
    match Decode.nodeList .outer items with
    | .ok body => .ok ⟨body⟩
    | .error error => .error ⟨[.statements], .shape error⟩
  | v =>
    match Decode.program v with
    | .ok program => .ok program
    | .error error => .error ⟨[.program], .shape error⟩

def ofText (text : String) : Except Failure Program :=
  match Json.parse text with
  | some v => ofValue v
  | none => .error ⟨[.treeText], .malformed⟩

end Program

/-- The rows of a program, and the lines of the nodes that were passed over. -/
structure Flattening where
  rows : List Row
  unsupported : List UInt64
deriving DecidableEq, Repr

def Program.flatten (options : FlattenOptions) (program : Program) :
    Except Failure Flattening :=
  match options.flatten program.body with
  | .ok rows => .ok ⟨rows, unsupportedLines program.body⟩
  | .error line => .error (.ofCause (.unsupported line))

end StatementTable
