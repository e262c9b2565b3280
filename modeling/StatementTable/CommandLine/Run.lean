import StatementTable.Batch
import StatementTable.CommandLine.Options

/-!
# Running the command line

The files to flatten are the inputs, and after them the tree files of the folders.  The report
goes to the output file if there is one, and is printed otherwise.
-/

namespace StatementTable.CommandLine

/-- What a run leaves behind for its caller. -/
structure Exit where
  code : Nat
  stdout : String := ""
  stderr : String := ""
deriving DecidableEq, Repr

namespace Exit

/-- The end of a run whose command line cannot be read. -/
def usage : Exit where
  code := 2
  stderr := "usage: [--input FILE]... [--folder DIR]... [--output FILE] " ++
    "[--format table|json] [--strict] [--jobs N] [--serve N]"

def failed (failure : Failure) : Exit :=
  { code := 1, stderr := failure.report }

/-- The end of a run with a report, which is printed if it has not been written to a file. -/
def finished (output : Option String) (report : String) : Exit :=
  { code := 0, stdout := if output.isNone then report else "" }

end Exit

namespace Options

def flattenOptions (options : Options) : FlattenOptions :=
  { strict := options.strict }

def reportFormat (options : Options) : Format :=
  options.format.getD .table

end Options

section Runs

variable {m : Type → Type} [Monad m] [FileSystem m]

def collectFolder (folder : String) : ExceptT Failure m (List String) := do
  ofExcept (collectFrom folder (← (FileSystem.look folder : m Sight)))

def Options.paths (options : Options) : ExceptT Failure m (List String) := do
  let collected ← options.folders.mapM collectFolder
  let paths := options.inputs ++ collected.flatten
  if paths.isEmpty then throw (.ofCause .noInput) else return paths

/-- Flattens the files that the options name. -/
def flattenFiles (options : Options) : ExceptT Failure m String := do
  let paths ← options.paths
  Batch.run options.flattenOptions options.reportFormat paths options.output

/-- Runs a command line, given how to serve on a socket. -/
def run (serve : UInt16 → m Exit) (arguments : List String) : m Exit := do
  match parse arguments with
  | none => return .usage
  | some options =>
    match options.serve with
    | some socket => serve socket
    | none =>
      match ← (flattenFiles options).run with
      | .ok report => return .finished options.output report
      | .error failure => return .failed failure

end Runs

end StatementTable.CommandLine
