import StatementTable.Flatten.Outcome

/-!
# The text of expressions

An expression is written with as few parentheses as possible: a binary expression is wrapped only
when it is an operand of another one, whatever the operators are.  Statements have no text.  What
an unsupported node is written as is a parameter.
-/

namespace StatementTable

/-- An operand of a binary expression, wrapped when it is a binary expression itself. -/
def operandText (wrapped : Bool) (text : String) : String :=
  if wrapped then "(" ++ text ++ ")" else text

/-- The text of an update, with the operator in front or behind. -/
def updateText (operator argument : String) (leading : Bool) : String :=
  if leading then operator ++ argument else argument ++ operator

namespace Node

/-- The text of a node, given what unsupported nodes amount to. -/
def renderWith (fallback : Fallback) : Node → String
  | .binary _ operator left right =>
    operandText left.isBinary (renderWith fallback left) ++ " " ++ operator ++ " " ++
      operandText right.isBinary (renderWith fallback right)
  | .unary _ operator argument => operator ++ renderWith fallback argument
  | .update _ operator argument leading =>
    updateText operator (renderWith fallback argument) leading
  | .member _ object property =>
    renderWith fallback object ++ "[" ++ renderWith fallback property ++ "]"
  | .identifier _ name => name
  | .literal _ raw => raw
  | .assignment _ operator left right =>
    renderWith fallback left ++ operator ++ renderWith fallback right
  | .unsupported start => (fallback start).toText
  | .expressionStatement _ _ | .functionDeclaration _ _ _ _ | .variableDeclaration _ _
  | .whileStatement _ _ _ | .ifStatement _ _ _ _ | .returnStatement _ _ | .block _ _
  | .forStatement _ _ _ _ _ => ""

def renderOptionWith (fallback : Fallback) : Option Node → String
  | none => ""
  | some n => n.renderWith fallback

def render (n : Node) : String :=
  n.renderWith .skip

end Node

end StatementTable
