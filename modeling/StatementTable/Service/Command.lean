import StatementTable.Row.Encode
import StatementTable.Service.Request
import StatementTable.Tree.Program

/-!
# Commands

The service knows three commands.  `PING` is answered by `PONG`, `FLATTEN` flattens the program
among its parameters, and `SHUTDOWN` stops the service.
-/

namespace StatementTable

open Json (Value Members)

namespace Decode

/-- Reads the parameters of a request to flatten: the program, which may be any value, and
whether to be strict. -/
def parameters : Value → Decoded (Value × FlattenOptions)
  | .object members => do
    let program ← require "program" (← member members "program" .ok)
    let strict ← member members "strict" flag
    return (program, { strict := strict.getD false })
  | v => .error (.wrongType v .parameters)

end Decode

namespace Flattening

/-- The rows and the lines passed over, as a value with sorted members. -/
def toValue (flattening : Flattening) : Value :=
  .object
    [("rows", .array (flattening.rows.map fun row => .object (Members.ofList row.members))),
     ("unsupported", .array (flattening.unsupported.map Value.ofUInt64))]

end Flattening

namespace Service

/-- The answer to a request, and whether the service should stop. -/
structure Reply where
  data : Value
  shutdown : Bool := false

def flatten (params : Option Value) : Except Failure Value :=
  match params with
  | none => .error (.ofCause .missingParameters)
  | some params =>
    match Decode.parameters params with
    | .error error => .error ⟨[.parameters], .shape error⟩
    | .ok (program, options) => do
      return (← (← Program.ofValue program).flatten options).toValue

def Request.execute (request : Request) : Except Failure Reply :=
  match request.command with
  | "PING" => .ok { data := .string "PONG" }
  | "FLATTEN" => (flatten request.params).map fun data => { data := data }
  | "SHUTDOWN" => .ok { data := .string "Shutting down...", shutdown := true }
  | name => .error (.ofCause (.unknownCommand name))

/-- Answers a line. -/
def execute (line : String) : Except Failure Reply :=
  match Request.read line with
  | some request => request.execute
  | none => .error ⟨[.request], .malformed⟩

end Service

end StatementTable
