/-!
# Paths

A path is a text whose segments are set apart by slashes.  Paths are ordered by their components,
in which empty segments and dots count for nothing, except for a dot in front.
-/

namespace StatementTable.Path

/-- The segments of a path between its slashes. -/
def segments (path : String) : List String :=
  (path.toList.splitOn '/').map String.ofList

inductive Component where
  | root
  | current
  | parent
  | normal (name : String)
deriving DecidableEq, Repr

namespace Component

/-- The place of a component among the sorts of components. -/
def rank : Component → Nat
  | .root => 0
  | .current => 1
  | .parent => 2
  | .normal _ => 3

def name : Component → String
  | .normal name => name
  | .root | .current | .parent => ""

/-- The order of components: by sort, and then by name. -/
def compare : Component → Component → Ordering :=
  compareLex (compareOn rank) (compareOn name)

end Component

/-- The component that a segment stands for, wherever in a path it is. -/
def component? (segment : String) : Option Component :=
  if segment = "" ∨ segment = "." then none
  else if segment = ".." then some .parent
  else some (.normal segment)

/-- What a path starts from: the root, or the current directory if the path says so. -/
def anchor (path : String) : List Component :=
  match path.toList, segments path with
  | '/' :: _, _ => [.root]
  | _, "." :: _ => [.current]
  | _, _ => []

def components (path : String) : List Component :=
  anchor path ++ (segments path).filterMap component?

def compare (a b : String) : Ordering :=
  List.compareLex Component.compare (components a) (components b)

/-- The name at the end of a path. -/
def lastName? (path : String) : Option String :=
  match (components path).getLast? with
  | some (.normal name) => some name
  | _ => none

/-- What follows the last dot of a name.  A name that begins with its only dot has no
extension. -/
def nameExtension? (name : String) : Option String :=
  let reversed := name.toList.reverse
  match reversed.dropWhile (· != '.') with
  | [] | [_] => none
  | _ => some (String.ofList (reversed.takeWhile (· != '.')).reverse)

def extension? (path : String) : Option String :=
  (lastName? path).bind nameExtension?

/-- The path of an entry of a directory. -/
def join (directory name : String) : String :=
  match directory.toList.getLast? with
  | none => name
  | some '/' => directory ++ name
  | some _ => directory ++ "/" ++ name

end StatementTable.Path
