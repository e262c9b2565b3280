import StatementTable.Json.Printer
import StatementTable.Service.Command
import StatementTable.Text.Blank

/-!
# Sessions

A session takes the bytes of a connection line by line.  Each line that is not blank is a request
and gets one line in answer.  The session ends at a line that is not text, and after the answer
to a request that stops the service.
-/

namespace StatementTable.Service

open Json (Value)

/-- The byte that ends a line. -/
def newline : UInt8 := 10

/-- Cuts bytes after each newline.  What follows the last newline is a line of its own. -/
def splitLines : List UInt8 → List (List UInt8)
  | [] => []
  | byte :: rest =>
    if byte = newline then [byte] :: splitLines rest
    else
      match splitLines rest with
      | [] => [[byte]]
      | line :: lines => (byte :: line) :: lines

/-- The text of a line, if it is text. -/
def decodeLine (line : List UInt8) : Option String :=
  String.fromUTF8? ⟨line.toArray⟩

/-- What is done about a line. -/
inductive Reaction where
  /-- The line is blank, and nothing is done. -/
  | ignore
  /-- The line is not text, and the session ends. -/
  | hangUp
  /-- The line is answered. -/
  | answer (reply : Value)
  /-- The line is answered, and the service stops. -/
  | stop (reply : Value)

def success (data : Value) : Value :=
  .object [("data", data), ("status", .string "success")]

def failure (failure : Failure) : Value :=
  .object [("message", .string failure.message), ("status", .string "error")]

/-- What is done about the request on a line. -/
def respond (line : String) : Reaction :=
  match execute line with
  | .ok reply =>
    if reply.shutdown then .stop (success reply.data) else .answer (success reply.data)
  | .error error => .answer (failure error)

/-- What is done about a line, which depends on nothing but the line. -/
def react (line : List UInt8) : Reaction :=
  match decodeLine line with
  | none => .hangUp
  | some text =>
    let request := Text.trim text
    if request.isEmpty then .ignore else respond request

/-- What a session answers. -/
structure Transcript where
  /-- The answers in order. -/
  replies : List Value
  /-- Whether the service was stopped. -/
  stopped : Bool

/-- An answer on a line of its own. -/
def replyLine (reply : Value) : List UInt8 :=
  reply.compact.toUTF8.toList ++ [newline]

namespace Transcript

def empty : Transcript := ⟨[], false⟩

/-- A further answer in front. -/
def prepend (reply : Value) (transcript : Transcript) : Transcript :=
  { transcript with replies := reply :: transcript.replies }

/-- The bytes of the answers. -/
def output (transcript : Transcript) : List UInt8 :=
  transcript.replies.flatMap replyLine

end Transcript

/-- Answers lines in order. -/
def handle : List (List UInt8) → Transcript
  | [] => .empty
  | line :: rest =>
    match react line with
    | .ignore => handle rest
    | .hangUp => .empty
    | .answer reply => (handle rest).prepend reply
    | .stop reply => ⟨[reply], true⟩

/-- Answers the bytes of a connection. -/
def session (bytes : List UInt8) : Transcript :=
  handle (splitLines bytes)

end StatementTable.Service
