import StatementTable.Tree.Node

/-!
# Walking a tree

A walk visits a node before its children and the children in the order in which they stand in
the source text.
-/

namespace StatementTable.Node

mutual

/-- The nodes of a tree in the order of the source text. -/
def walk : Node → List Node
  | n@(.expressionStatement _ expression) => n :: walk expression
  | n@(.functionDeclaration _ id params body) =>
    n :: walkOption id ++ walkList params ++ walk body
  | n@(.variableDeclaration _ declarations) => n :: walkDeclarators declarations
  | n@(.whileStatement _ test body) => n :: walk test ++ walk body
  | n@(.ifStatement _ test consequent alternate) =>
    n :: walk test ++ walk consequent ++ walkOption alternate
  | n@(.returnStatement _ argument) => n :: walkOption argument
  | n@(.binary _ _ left right) => n :: walk left ++ walk right
  | n@(.unary _ _ argument) => n :: walk argument
  | n@(.update _ _ argument _) => n :: walk argument
  | n@(.block _ body) => n :: walkList body
  | n@(.member _ object property) => n :: walk object ++ walk property
  | n@(.forStatement _ init test step body) =>
    n :: walkOption init ++ walkOption test ++ walkOption step ++ walk body
  | n@(.identifier _ _) => [n]
  | n@(.literal _ _) => [n]
  | n@(.assignment _ _ left right) => n :: walk left ++ walk right
  | n@(.unsupported _) => [n]

def walkOption : Option Node → List Node
  | none => []
  | some n => walk n

def walkList : List Node → List Node
  | [] => []
  | n :: ns => walk n ++ walkList ns

def walkDeclarators : List Declarator → List Node
  | [] => []
  | .mk id init :: rest => walk id ++ walkOption init ++ walkDeclarators rest

end

end StatementTable.Node

namespace StatementTable

/-- The lines of the unsupported nodes of a list of statements, in the order of the source
text. -/
def unsupportedLines (statements : List Node) : List UInt64 :=
  ((Node.walkList statements).filter Node.isUnsupported).map Node.line

end StatementTable
