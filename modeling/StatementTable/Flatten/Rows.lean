import StatementTable.Flatten.Render
import StatementTable.Tree.Walk

/-!
# Flattening statements into rows

The rows of a statement come in the order of the source text, those of nested statements after
the row of the statement around them.  An `else` branch whose rows begin with an `if` row is an
`else if`: that row is relabelled, and no `else` row is written.
-/

namespace StatementTable

/-- The rows of an `else` branch on the given line. -/
def elseRows (line : UInt64) (branch : List Row) : List Row :=
  match branch with
  | head :: tail =>
    if head.label = .ifStatement then head.relabel .elseIf :: tail
    else { line := line, label := .elseBranch } :: head :: tail
  | [] => [{ line := line, label := .elseBranch }]

namespace Declarator

/-- The row of a declared name. -/
def row (fallback : Fallback) (line : UInt64) : Declarator → Row
  | .mk id init =>
    { line := line, label := .variableDeclaration, name := id.renderWith fallback,
      value := Node.renderOptionWith fallback init }

/-- A declared name as an assignment. -/
def clause (fallback : Fallback) : Declarator → String
  | .mk id none => id.renderWith fallback
  | .mk id (some init) => id.renderWith fallback ++ "=" ++ init.renderWith fallback

end Declarator

namespace Node

/-- The first clause of a `for` statement.  Declarations are written as assignments. -/
def initClause (fallback : Fallback) : Option Node → String
  | some (.variableDeclaration _ declarations) =>
    ",".intercalate (declarations.map (Declarator.clause fallback))
  | init => renderOptionWith fallback init

/-- The condition of a `for` statement: its three clauses. -/
def forCondition (fallback : Fallback) (init test step : Option Node) : String :=
  initClause fallback init ++ ";" ++ renderOptionWith fallback test ++ ";" ++
    renderOptionWith fallback step

/-- The row of an expression that is a statement. -/
def expressionRow (fallback : Fallback) (line : UInt64) : Node → Row
  | .assignment _ _ left right =>
    { line := line, label := .assignment, name := left.renderWith fallback,
      value := right.renderWith fallback }
  | expression =>
    { line := line, label := .update, value := expression.renderWith fallback }

/-- The row of a parameter of a function on the given line. -/
def parameterRow (fallback : Fallback) (line : UInt64) (parameter : Node) : Row :=
  { line := line, label := .variableDeclaration, name := parameter.renderWith fallback }

mutual

/-- The rows of a node in the place of a statement, given what unsupported nodes amount to. -/
def rowsWith (fallback : Fallback) : Node → List Row
  | .expressionStatement start expression => [expressionRow fallback start.line expression]
  | .functionDeclaration start id params body =>
    { line := start.line, label := .functionDeclaration, name := renderOptionWith fallback id } ::
      params.map (parameterRow fallback start.line) ++ rowsWith fallback body
  | .variableDeclaration start declarations =>
    declarations.map (Declarator.row fallback start.line)
  | .whileStatement start test body =>
    { line := start.line, label := .whileStatement, condition := test.renderWith fallback } ::
      rowsWith fallback body
  | .ifStatement start test consequent alternate =>
    { line := start.line, label := .ifStatement, condition := test.renderWith fallback } ::
      rowsWith fallback consequent ++ alternateRowsWith fallback alternate
  | .returnStatement start argument =>
    [{ line := start.line, label := .returnStatement,
       value := renderOptionWith fallback argument }]
  | .block _ body => listRowsWith fallback body
  | .forStatement start init test step body =>
    { line := start.line, label := .forStatement,
      condition := forCondition fallback init test step } :: rowsWith fallback body
  | .update start operator argument leading =>
    [{ line := start.line, label := .update,
       name := updateText operator (argument.renderWith fallback) leading }]
  | .unsupported start => (fallback start).toRows
  | .binary _ _ _ _ | .unary _ _ _ | .member _ _ _ | .identifier _ _ | .literal _ _
  | .assignment _ _ _ _ => []

/-- The rows of an `else` branch that may be absent. -/
def alternateRowsWith (fallback : Fallback) : Option Node → List Row
  | none => []
  | some alternate => elseRows alternate.line (rowsWith fallback alternate)

def listRowsWith (fallback : Fallback) : List Node → List Row
  | [] => []
  | statement :: rest => rowsWith fallback statement ++ listRowsWith fallback rest

end

def rows (n : Node) : List Row :=
  n.rowsWith .skip

/-- What a node amounts to, given what unsupported nodes amount to. -/
def outcomeWith (fallback : Fallback) (n : Node) : Outcome :=
  match n with
  | .unsupported start => fallback start
  | .update start operator argument leading =>
    .update start.line (updateText operator (argument.renderWith fallback) leading)
  | .binary _ _ _ _ | .unary _ _ _ | .member _ _ _ | .identifier _ _ | .literal _ _
  | .assignment _ _ _ _ => .expression (n.renderWith fallback)
  | .expressionStatement _ _ | .functionDeclaration _ _ _ _ | .variableDeclaration _ _
  | .whileStatement _ _ _ | .ifStatement _ _ _ _ | .returnStatement _ _ | .block _ _
  | .forStatement _ _ _ _ _ => .statement (n.rowsWith fallback)

theorem toRows_outcomeWith (fallback : Fallback) (n : Node) :
    (n.outcomeWith fallback).toRows = n.rowsWith fallback := by
  cases n <;> simp [outcomeWith, rowsWith, Outcome.toRows]

theorem toText_outcomeWith (fallback : Fallback) (n : Node) :
    (n.outcomeWith fallback).toText = n.renderWith fallback := by
  cases n <;> simp [outcomeWith, renderWith, Outcome.toText]

/-- What a node that may be absent amounts to. -/
def outcome : Option Node → Outcome
  | none => .absent
  | some n => n.outcomeWith .skip

end Node

/-- The rows of a list of statements, given what unsupported nodes amount to. -/
def flattenWith (fallback : Fallback) (statements : List Node) : List Row :=
  Node.listRowsWith fallback statements

def flatten (statements : List Node) : List Row :=
  flattenWith .skip statements

/-- How strictly statements are flattened. -/
structure FlattenOptions where
  /-- Whether an unsupported node is an error. -/
  strict : Bool := false
deriving DecidableEq, Repr

/-- The rows of a list of statements.  A strict reading fails with the line of the first
unsupported node in the order of the source text. -/
def FlattenOptions.flatten (options : FlattenOptions) (statements : List Node) :
    Except UInt64 (List Row) :=
  match options.strict, unsupportedLines statements with
  | true, line :: _ => .error line
  | _, _ => .ok (StatementTable.flatten statements)

end StatementTable
