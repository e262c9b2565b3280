import StatementTable.Files.Collect

/-!
# File systems

What a program asks of the files around it is the same for the files of a machine and for a file
tree that is kept as a state.  A program that is written for every file system does to the one what
it does to the other.
-/

namespace StatementTable

/-- How the content of a file is found. -/
abbrev FileReader := String → Except FileError ByteArray

/-- The operations on files in a monad. -/
class FileSystem (m : Type → Type) where
  /-- What is seen at a path. -/
  look : String → m Sight
  /-- Reads the files at the given paths. -/
  readAll : List String → m FileReader
  write : String → ByteArray → m (Except FileError Unit)

/-- A file tree, which every write replaces by another. -/
instance : FileSystem (StateM FileTree) where
  look path := return (← get).look path
  readAll _ := return (← get).read
  write path content := do
    match (← get).write path content with
    | .ok root =>
      set root
      return .ok ()
    | .error error => return .error error

end StatementTable
