import StatementTable.Files.FileTree

/-!
# Collecting the tree files of a folder

A tree file is known by the extension `json` of its name.  Those at or below a path are collected in
the order of paths, and the folders that hold no sources of the project itself are passed over.
What the walk goes by is what is seen at each path: at the root it wants a file or a directory that
can be listed, and of the entries of a directory it enters those that are seen to be directories and
takes all others by their names.
-/

namespace StatementTable

/-- The names of the folders that are passed over. -/
def skippedNames : List String :=
  ["target", ".git", "node_modules"]

/-- Whether a path is passed over because of the name at its end. -/
def isSkipped (path : String) : Bool :=
  match Path.lastName? path with
  | some name => skippedNames.contains name
  | none => false

def isTreeFile (path : String) : Bool :=
  Path.extension? path == some "json"

/-- The path itself, if it is that of a tree file. -/
def treeFile (path : String) : List String :=
  if isTreeFile path then [path] else []

/-- What is seen at a path. -/
inductive Sight where
  /-- Nothing, or nothing that can be looked up. -/
  | nothing
  | file
  /-- A directory, and what is seen at its entries. -/
  | folder (entries : List (String × Sight))
  /-- A directory that cannot be listed. -/
  | closed (error : FileError)
  | special

namespace Sight

def isDirectory : Sight → Bool
  | .folder _ | .closed _ => true
  | .nothing | .file | .special => false

def listFailure (path : String) (error : FileError) : Failure :=
  ⟨[.listing path], .file error⟩

mutual

/-- The tree files at or below a path, in the order in which directories list their entries.  The
first directory that cannot be listed ends the walk. -/
def walk (path : String) (sight : Sight) : Except Failure (List String) :=
  if isSkipped path then .ok []
  else
    match sight with
    | .nothing => .ok []
    | .file => .ok (treeFile path)
    | .folder entries => walkEntries path entries
    | .closed error => .error (listFailure path error)
    | .special => .error (listFailure path .notDirectory)

def walkEntries (path : String) : List (String × Sight) → Except Failure (List String)
  | [] => .ok []
  | (name, sight) :: rest => do
    let entry := Path.join path name
    let first ← if sight.isDirectory then walk entry sight else .ok (treeFile entry)
    return first ++ (← walkEntries path rest)

end

end Sight

/-- Removes every path that equals the one before it, the given path being before the first. -/
def dropRepeatsAfter (path : String) : List String → List String
  | [] => []
  | next :: rest =>
    if Path.compare path next = .eq then dropRepeatsAfter path rest
    else next :: dropRepeatsAfter next rest

/-- Removes every path that equals the one before it. -/
def dropRepeats : List String → List String
  | [] => []
  | path :: rest => path :: dropRepeatsAfter path rest

/-- Paths in order, each of them once. -/
def sortPaths (paths : List String) : List String :=
  dropRepeats (paths.mergeSort fun a b => (Path.compare a b).isLE)

/-- The tree files at or below a path in order, given what is seen there. -/
def collectFrom (path : String) (sight : Sight) : Except Failure (List String) :=
  (sight.walk path).map sortPaths

namespace FileTree

mutual

/-- What is seen at a path that leads to a tree. -/
def sight (root : FileTree) (path : String) : FileTree → Sight
  | .file _ => .file
  | .directory access entries =>
    if access.list then .folder (entrySights root path entries) else .closed .denied
  | .special => .special

/-- What is seen at the entries of the directory at a path.  An entry that is listed may be out of
reach. -/
def entrySights (root : FileTree) (path : String) : List (String × FileTree) →
    List (String × Sight)
  | [] => []
  | (name, tree) :: rest =>
    let entry := Path.join path name
    (name, if (root.lookup? entry).isSome then sight root entry tree else .nothing) ::
      entrySights root path rest

end

def look (root : FileTree) (path : String) : Sight :=
  match root.lookup? path with
  | none => .nothing
  | some tree => root.sight path tree

/-- The tree files at or below a path. -/
def collect (root : FileTree) (path : String) : Except Failure (List String) :=
  collectFrom path (root.look path)

end FileTree

end StatementTable
