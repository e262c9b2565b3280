import StatementTable.Json.Builder

/-!
# Requests

A request is one JSON text, an object with a `command` and perhaps `params`, or an array of these
two.  The request is read straight from its tokens: each of the two fields may be given once
only, and the values of all other members are passed over.  A value that is passed over need not
be in range, paired or within the limit of nesting.
-/

namespace StatementTable.Service

open Json (Value Token Builder)

/-- A request.  Parameters that are null count as absent. -/
structure Request where
  command : String
  params : Option Value

inductive Field where
  | command
  | params
  | other
deriving DecidableEq, Repr

namespace Field

def ofKey (key : String) : Field :=
  if key = "command" then .command else if key = "params" then .params else .other

/-- The number of containers that may be open inside the value of a field.  The request itself is
open around it. -/
def limit : Field → Option Nat
  | .command | .params => some (Json.nestingLimit - 1)
  | .other => none

/-- A token as the value of a field takes it.  In a value that is passed over, any numeral and
any string will do. -/
def accept (field : Field) (token : Token) : Token :=
  match field, token with
  | .other, .number none => .number (some (.natural 0))
  | .other, .string none => .string (some "")
  | _, token => token

end Field

/-- The fields of a request that have been read. -/
structure Draft where
  command : Option String := none
  params : Option Value := none

namespace Draft

/-- Notes the value of a field.  A field may be given once only, and the command is a text. -/
def record (draft : Draft) (field : Field) (value : Value) : Option Draft :=
  match field, draft.command, draft.params, value with
  | .command, none, _, .string name => some { draft with command := some name }
  | .params, _, none, value => some { draft with params := some value }
  | .other, _, _, _ => some draft
  | _, _, _, _ => none

/-- The field that the next item of an array gives. -/
def nextField (draft : Draft) : Option Field :=
  if draft.command.isNone then some .command
  else if draft.params.isNone then some .params
  else none

/-- The request, once the command is known. -/
def request (draft : Draft) : Option Request :=
  draft.command.map fun command =>
    { command := command
      params := match draft.params with
        | some .null => none
        | params => params }

end Draft

/-- The two forms of a request: an object, or an array. -/
inductive Form where
  | named
  | positional
deriving DecidableEq, Repr

/-- What the reader of a request waits for. -/
inductive Reading where
  /-- The opening bracket. -/
  | opening
  /-- A key, or the end of the object if it may end here. -/
  | key (draft : Draft) (mayEnd : Bool)
  /-- The colon after a key. -/
  | colon (draft : Draft) (field : Field)
  /-- More of the value of a field. -/
  | value (draft : Draft) (form : Form) (field : Field) (builder : Builder)
  /-- A comma or the closing bracket. -/
  | separator (draft : Draft) (form : Form)
  /-- Nothing. -/
  | closed (draft : Draft)

namespace Reading

/-- Takes a token of the value of a field. -/
def stepValue (draft : Draft) (form : Form) (field : Field) (builder : Builder) (token : Token) :
    Option Reading :=
  match builder.step field.limit (field.accept token) with
  | none => none
  | some (.done v) => (draft.record field v).map fun draft => .separator draft form
  | some builder => some (.value draft form field builder)

def step : Reading → Token → Option Reading
  | .opening, .openObject => some (.key {} true)
  | .opening, .openArray => some (.value {} .positional .command .start)
  | .key draft _, .string (some name) => some (.colon draft (.ofKey name))
  | .key draft true, .closeObject => some (.closed draft)
  | .colon draft field, .colon => some (.value draft .named field .start)
  | .value draft form field builder, token => stepValue draft form field builder token
  | .separator draft .named, .comma => some (.key draft false)
  | .separator draft .named, .closeObject => some (.closed draft)
  | .separator draft .positional, .comma =>
    draft.nextField.map fun field => .value draft .positional field .start
  | .separator draft .positional, .closeArray =>
    if draft.nextField.isNone then some (.closed draft) else none
  | _, _ => none

/-- The request, once its closing bracket is read. -/
def result? : Reading → Option Request
  | .closed draft => draft.request
  | _ => none

end Reading

def Request.read (text : String) : Option Request := do
  let tokens ← Json.scan text
  let reading ← tokens.foldlM Reading.step Reading.opening
  reading.result?

end StatementTable.Service
