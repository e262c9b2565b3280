import StatementTable.Decode.Error

/-!
# Failures

A failure has a cause and the contexts in which it arose, the widest first.  It is told in one
line, from the widest context down to the cause, or as a report with the causes underneath.
-/

namespace StatementTable

/-- Why a file or a directory cannot be used. -/
inductive FileError where
  | missing
  | noDevice
  | denied
  | notDirectory
  | isDirectory
  | tooLong
  | notText
  /-- Any other error, in the words of the machine. -/
  | other (words : String)
deriving DecidableEq, Repr

def FileError.message : FileError → String
  | .missing => "No such file or directory (os error 2)"
  | .noDevice => "No such device or address (os error 6)"
  | .denied => "Permission denied (os error 13)"
  | .notDirectory => "Not a directory (os error 20)"
  | .isDirectory => "Is a directory (os error 21)"
  | .tooLong => "File name too long (os error 36)"
  | .notText => "stream did not contain valid UTF-8"
  | .other words => words

/-- What was being done when a failure arose. -/
inductive Context where
  /-- Reading the JSON text of a syntax tree. -/
  | treeText
  /-- Decoding a list of statements. -/
  | statements
  /-- Decoding a program. -/
  | program
  /-- Reading the JSON text of a request. -/
  | request
  /-- Decoding the parameters of a request. -/
  | parameters
  /-- Reading a file. -/
  | reading (path : String)
  /-- Making a syntax tree of a file. -/
  | parsing (path : String)
  /-- Flattening the syntax tree of a file. -/
  | flattening (path : String)
  /-- Writing a file. -/
  | writing (path : String)
  /-- Listing the entries of a directory. -/
  | listing (path : String)
deriving DecidableEq, Repr

def Context.message : Context → String
  | .treeText => "Invalid JSON syntax tree"
  | .statements => "Statement array does not match the ESTree shape"
  | .program => "Program does not match the ESTree shape"
  | .request => "Invalid JSON format"
  | .parameters => "Invalid FLATTEN params"
  | .reading path => "Failed to read syntax tree " ++ path
  | .parsing path => "Failed to parse syntax tree " ++ path
  | .flattening path => "Failed to flatten " ++ path
  | .writing path => "Failed to write " ++ path
  | .listing path => "Failed to read directory " ++ path

/-- The cause of a failure. -/
inductive Cause where
  /-- A text is not JSON.  The context says what text it was. -/
  | malformed
  /-- A value does not decode. -/
  | shape (error : DecodeError)
  /-- A node of an unsupported kind stands on the line. -/
  | unsupported (line : UInt64)
  /-- A file cannot be used. -/
  | file (error : FileError)
  /-- There is no command of the name. -/
  | unknownCommand (name : String)
  /-- A command needs parameters. -/
  | missingParameters
  /-- There is nothing to flatten. -/
  | noInput
deriving Repr

/-- The wording of a cause.  The program goes on with the JSON reader's own account of a malformed
text, which is left out here. -/
def Cause.message? : Cause → Option String
  | .malformed => none
  | .shape error => some error.message
  | .unsupported line => some ("unsupported syntax node at line " ++ toString line.toNat)
  | .file error => some error.message
  | .unknownCommand name => some ("Unknown command: " ++ name)
  | .missingParameters => some "Missing params for FLATTEN"
  | .noInput => some "Please provide at least one --input <file> or --folder <dir>"

structure Failure where
  /-- The contexts, the widest first. -/
  contexts : List Context
  cause : Cause
deriving Repr

namespace Failure

/-- A failure without a context. -/
def ofCause (cause : Cause) : Failure :=
  ⟨[], cause⟩

def within (context : Context) (failure : Failure) : Failure :=
  { failure with contexts := context :: failure.contexts }

/-- The wordings of the contexts and the cause. -/
def parts (failure : Failure) : List String :=
  failure.contexts.map Context.message ++ failure.cause.message?.toList

/-- A failure in one line. -/
def message (failure : Failure) : String :=
  ": ".intercalate failure.parts

/-- The causes below the first part, numbered if there is more than one. -/
def causeLines (numbered : Bool) (causes : List String) : List String :=
  if numbered then
    causes.mapIdx fun i cause => "    " ++ toString i ++ ": " ++ cause
  else causes.map fun cause => "    " ++ cause

/-- A failure as a report. -/
def report (failure : Failure) : String :=
  match failure.parts with
  | [] => "Error:"
  | [first] => "Error: " ++ first
  | first :: causes =>
    "Error: " ++ first ++ "\n\nCaused by:\n" ++
      "\n".intercalate (causeLines (1 < failure.contexts.length) causes)

end Failure

end StatementTable
