/-!
# Rows and tables

A row describes one statement, or one part of a statement worth a line of its own: where it
stands, what it is, and what it names, tests and computes.  A table holds the rows of one source.
-/

namespace StatementTable

/-- What a row describes. -/
inductive Label where
  | functionDeclaration
  | variableDeclaration
  | assignment
  | update
  | whileStatement
  | ifStatement
  | elseIf
  | elseBranch
  | forStatement
  | returnStatement
deriving DecidableEq, Repr

namespace Label

/-- The wording of a label. -/
def text : Label → String
  | .functionDeclaration => "function declaration"
  | .variableDeclaration => "variable declaration"
  | .assignment => "assignment expression"
  | .update => "update expression"
  | .whileStatement => "while statement"
  | .ifStatement => "if statement"
  | .elseIf => "else if statement"
  | .elseBranch => "else statement"
  | .forStatement => "for statement"
  | .returnStatement => "return statement"

def all : List Label :=
  [.functionDeclaration, .variableDeclaration, .assignment, .update, .whileStatement,
    .ifStatement, .elseIf, .elseBranch, .forStatement, .returnStatement]

def ofText? (text : String) : Option Label :=
  all.find? fun label => label.text == text

end Label

structure Row where
  line : UInt64
  label : Label
  name : String := ""
  condition : String := ""
  value : String := ""
deriving DecidableEq, Repr

namespace Row

def relabel (row : Row) (label : Label) : Row :=
  { row with label := label }

end Row

/-- The rows of one source. -/
structure Table where
  source : String
  rows : List Row
deriving DecidableEq, Repr

end StatementTable
