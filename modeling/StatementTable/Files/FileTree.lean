import StatementTable.Failure
import StatementTable.Files.Path

/-!
# File trees

A file tree is a file with its content, a directory with its entries, or something else.  Paths
are followed from the root of a tree segment by segment.  Every segment but the last must lead to a
directory, and so must the last one if a slash follows it.  The directories on the way must allow
it, and neither the path nor its names may be too long.
-/

namespace StatementTable

/-- What a directory allows: to list its entries, and to go on to one of them. -/
structure Access where
  list : Bool := true
  search : Bool := true
deriving DecidableEq, Repr

/-- A file, a directory with its entries, or an entry of another kind, such as a socket, which
cannot be opened. -/
inductive FileTree where
  | file (content : ByteArray)
  | directory (access : Access) (entries : List (String × FileTree))
  | special

namespace FileTree

/-- The number of bytes that a path must stay below. -/
def pathLimit : Nat := 4096

/-- The number of bytes that a name may have. -/
def nameLimit : Nat := 255

def empty : FileTree := .directory {} []

def entry? : FileTree → String → Option FileTree
  | .directory _ entries, name => entries.lookup name
  | .file _, _ | .special, _ => none

/-- The tree at a place given by names from the root. -/
def find? : FileTree → List String → Option FileTree
  | tree, [] => some tree
  | tree, name :: names => (tree.entry? name).bind fun entry => entry.find? names

/-- Entries with one of them replaced, or added if there is none of the name. -/
def putEntry (name : String) (tree : FileTree) : List (String × FileTree) →
    List (String × FileTree)
  | [] => [(name, tree)]
  | (n, t) :: rest => if n = name then (n, tree) :: rest else (n, t) :: putEntry name tree rest

/-- Puts a tree at a place given by names from the root.  Directories on the way are made as they
are needed. -/
def put (new : FileTree) : List String → FileTree → FileTree
  | [], _ => new
  | name :: names, .directory access entries =>
    .directory access (putEntry name (put new names ((entries.lookup name).getD empty)) entries)
  | _ :: _, tree => tree

/-- Follows one segment of a path from the directory at a place. -/
def follow (root : FileTree) (place : List String) (segment : String) :
    Except FileError (List String) :=
  match root.find? place with
  | none => .error .missing
  | some (.directory access entries) =>
    if segment = "" then .ok place
    else if !access.search then .error .denied
    else if segment = "." then .ok place
    else if segment = ".." then .ok place.dropLast
    else if nameLimit < segment.utf8ByteSize then .error .tooLong
    else if (entries.lookup segment).isSome then .ok (place ++ [segment])
    else .error .missing
  | some (.file _) | some .special => .error .notDirectory

/-- The place to which a path leads. -/
def resolve (root : FileTree) (path : String) : Except FileError (List String) :=
  if path.isEmpty then .error .missing
  else if pathLimit ≤ path.utf8ByteSize then .error .tooLong
  else (Path.segments path).foldlM (follow root) []

/-- The tree to which a path leads. -/
def lookup? (root : FileTree) (path : String) : Option FileTree :=
  match root.resolve path with
  | .ok place => root.find? place
  | .error _ => none

def read (root : FileTree) (path : String) : Except FileError ByteArray := do
  match root.find? (← root.resolve path) with
  | some (.file content) => .ok content
  | some (.directory _ _) => .error .isDirectory
  | some .special => .error .noDevice
  | none => .error .missing

/-- The place at which a path asks for a file: the directory that it must be in, and its name.
A path that ends in a slash or a dot names a directory. -/
def filePlace (root : FileTree) (path : String) : Except FileError (List String) :=
  let segments := (Path.segments path).filter fun segment => !segment.isEmpty
  if pathLimit ≤ path.utf8ByteSize then .error .tooLong
  else
    match segments.getLast? with
    | none => .error (if path.isEmpty then .missing else .isDirectory)
    | some name => do
      let directory ← segments.dropLast.foldlM (follow root) []
      let _ ← follow root directory "."
      if name = "." ∨ name = ".." ∨ path.toList.getLast? = some '/' then .error .isDirectory
      else if nameLimit < name.utf8ByteSize then .error .tooLong
      else .ok (directory ++ [name])

/-- Writes the file at a path, whose directory must exist. -/
def write (root : FileTree) (path : String) (content : ByteArray) :
    Except FileError FileTree := do
  let place ← root.filePlace path
  match root.find? place with
  | some (.directory _ _) => .error .isDirectory
  | some .special => .error .noDevice
  | some (.file _) | none => .ok (put (.file content) place root)

/-- Follows one segment of a path, and makes a directory if there is none of that name. -/
def makeStep (state : FileTree × List String) (segment : String) :
    Except FileError (FileTree × List String) :=
  let (root, place) := state
  match root.follow place segment with
  | .ok next => .ok (root, next)
  | .error .missing => .ok (put empty (place ++ [segment]) root, place ++ [segment])
  | .error error => .error error

/-- Makes the directories along a list of segments. -/
def makeDirectories (root : FileTree) (segments : List String) : Except FileError FileTree := do
  let (root, place) ← segments.foldlM makeStep (root, [])
  let _ ← follow root place ""
  return root

/-- Makes the directory at a path, with the directories on the way. -/
def makeDirectory (root : FileTree) (path : String) : Except FileError FileTree :=
  if pathLimit ≤ path.utf8ByteSize then .error .tooLong
  else root.makeDirectories (Path.segments path)

/-- Writes the file at a path, and makes the directories on the way. -/
def create (root : FileTree) (path : String) (content : ByteArray) :
    Except FileError FileTree := do
  let root ← root.makeDirectories (Path.segments path).dropLast
  root.write path content

end FileTree

end StatementTable
