import StatementTable.Row
import StatementTable.Tree.Node

/-!
# What a node amounts to

A statement amounts to rows and an expression to text.  An update such as `i++` is an expression
that is worth a row when it stands where a statement is expected.  The place where a node stands
decides which of the two is wanted, and `toRows` and `toText` give it.
-/

namespace StatementTable

/-- What a node amounts to. -/
inductive Outcome where
  /-- There is no node. -/
  | absent
  /-- A statement, with its rows. -/
  | statement (rows : List Row)
  /-- An expression, with its text. -/
  | expression (text : String)
  /-- An update, with its line and its text. -/
  | update (line : UInt64) (text : String)
  /-- A node of an unsupported kind, with its line. -/
  | unsupported (line : UInt64)
deriving DecidableEq, Repr

namespace Outcome

/-- The rows in the place of a statement. -/
def toRows : Outcome → List Row
  | .statement rows => rows
  | .update line text => [{ line := line, label := .update, name := text }]
  | .absent | .expression _ | .unsupported _ => []

/-- The text in the place of an expression. -/
def toText : Outcome → String
  | .expression text => text
  | .update _ text => text
  | .absent | .statement _ | .unsupported _ => ""

end Outcome

/-- What an unsupported node amounts to, given where it starts. -/
abbrev Fallback := Position → Outcome

namespace Fallback

/-- An unsupported node is passed over: it has no rows and no text. -/
def skip : Fallback :=
  fun start => .unsupported start.line

end Fallback

end StatementTable
