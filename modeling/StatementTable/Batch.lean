import StatementTable.Files.FileSystem
import StatementTable.Report
import StatementTable.Tree.Program

/-!
# Batches

A batch turns files into tables, one table for each file in the order of the files.  In which
order the files are taken up is left to a schedule.  A batch fails as a whole if one of the files
fails, and it writes its report only after all files are flattened.
-/

namespace StatementTable

namespace Batch

def loadText (read : FileReader) (path : String) : Except FileError String := do
  let content ← read path
  match String.fromUTF8? content with
  | some text => .ok text
  | none => .error .notText

def load (read : FileReader) (path : String) : Except Failure Program :=
  match loadText read path with
  | .error error => .error ⟨[.reading path], .file error⟩
  | .ok text => (Program.ofText text).mapError (Failure.within (.parsing path))

def table (options : FlattenOptions) (read : FileReader) (path : String) :
    Except Failure Table := do
  let program ← load read path
  match program.flatten options with
  | .ok flattening => .ok { source := path, rows := flattening.rows }
  | .error failure => .error (failure.within (.flattening path))

/-- An order in which to take up inputs: every one of them, once. -/
structure Schedule (count : Nat) where
  order : List (Fin count)
  perm : order.Perm (List.finRange count)

def Schedule.inOrder (count : Nat) : Schedule count :=
  ⟨List.finRange count, .refl _⟩

/-- Takes up one input, and keeps its table beside the tables that are done. -/
def takeUp (options : FlattenOptions) (read : FileReader) (paths : List String)
    (done : List (Fin paths.length × Table)) (i : Fin paths.length) :
    Except Failure (List (Fin paths.length × Table)) := do
  return (i, ← table options read (paths.get i)) :: done

/-- The tables of a list of files that are taken up on a schedule.  The tables are in the order of
the files, and the first failure ends the work. -/
def tablesOn (options : FlattenOptions) (read : FileReader) (paths : List String)
    (schedule : Schedule paths.length) : Except Failure (List Table) := do
  let done ← schedule.order.foldlM (takeUp options read paths) []
  return (List.finRange paths.length).filterMap fun i => done.lookup i

def tables (options : FlattenOptions) (read : FileReader) (paths : List String) :
    Except Failure (List Table) :=
  tablesOn options read paths (.inOrder paths.length)

def writeFailure (path : String) (error : FileError) : Failure :=
  ⟨[.writing path], .file error⟩

section Runs

variable {m : Type → Type} [Monad m] [FileSystem m]

def save (path report : String) : ExceptT Failure m Unit := do
  match ← (FileSystem.write path report.toUTF8 : m (Except FileError Unit)) with
  | .ok _ => return
  | .error error => throw (writeFailure path error)

/-- The report on tables.  If an output is given, the report is written to it. -/
def deliver (format : Format) (tables : List Table) (output : Option String) :
    ExceptT Failure m String := do
  if let some path := output then
    save path (Report.render format tables)
  return Report.render format tables

/-- The report on a list of files that are taken up on a schedule. -/
def runOn (options : FlattenOptions) (format : Format) (paths : List String)
    (schedule : Schedule paths.length) (output : Option String) : ExceptT Failure m String := do
  let read ← (FileSystem.readAll paths : m FileReader)
  let tables ← ofExcept (tablesOn options read paths schedule)
  deliver format tables output

/-- The report on a list of files that are taken up one after the other. -/
def run (options : FlattenOptions) (format : Format) (paths : List String)
    (output : Option String) : ExceptT Failure m String :=
  runOn options format paths (.inOrder paths.length) output

end Runs

end Batch

end StatementTable
