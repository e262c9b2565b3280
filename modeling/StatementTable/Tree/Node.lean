/-!
# Syntax trees

A node of a syntax tree says where it starts and which construct it is.  Fifteen kinds of
statements and expressions are told apart.  Every other construct of the language is a node of
the kind `unsupported`, of which only the place is kept.
-/

namespace StatementTable

/-- A place in a source text. -/
structure Position where
  line : UInt64
  column : UInt64
deriving DecidableEq, Repr, Inhabited

inductive Kind where
  | expressionStatement
  | functionDeclaration
  | variableDeclaration
  | whileStatement
  | ifStatement
  | returnStatement
  | binary
  | unary
  | update
  | block
  | member
  | forStatement
  | identifier
  | literal
  | assignment
  | unsupported
deriving DecidableEq, Repr

namespace Kind

/-- The name of a kind in a syntax tree. -/
def name : Kind → String
  | .expressionStatement => "ExpressionStatement"
  | .functionDeclaration => "FunctionDeclaration"
  | .variableDeclaration => "VariableDeclaration"
  | .whileStatement => "WhileStatement"
  | .ifStatement => "IfStatement"
  | .returnStatement => "ReturnStatement"
  | .binary => "BinaryExpression"
  | .unary => "UnaryExpression"
  | .update => "UpdateExpression"
  | .block => "BlockStatement"
  | .member => "MemberExpression"
  | .forStatement => "ForStatement"
  | .identifier => "Identifier"
  | .literal => "Literal"
  | .assignment => "AssignmentExpression"
  | .unsupported => "Unsupported"

/-- The kinds that are told apart, in the order by which they are numbered. -/
def recognised : List Kind :=
  [.expressionStatement, .functionDeclaration, .variableDeclaration, .whileStatement,
    .ifStatement, .returnStatement, .binary, .unary, .update, .block, .member, .forStatement,
    .identifier, .literal, .assignment]

def ofName (name : String) : Kind :=
  (recognised.find? fun kind => kind.name == name).getD .unsupported

def ofIndex (index : Nat) : Kind :=
  (recognised[index]?).getD .unsupported

end Kind

mutual

/-- A node of a syntax tree. -/
inductive Node where
  | expressionStatement (start : Position) (expression : Node)
  | functionDeclaration (start : Position) (id : Option Node) (params : List Node) (body : Node)
  | variableDeclaration (start : Position) (declarations : List Declarator)
  | whileStatement (start : Position) (test body : Node)
  | ifStatement (start : Position) (test consequent : Node) (alternate : Option Node)
  | returnStatement (start : Position) (argument : Option Node)
  | binary (start : Position) (operator : String) (left right : Node)
  | unary (start : Position) (operator : String) (argument : Node)
  | update (start : Position) (operator : String) (argument : Node) (leading : Bool)
  | block (start : Position) (body : List Node)
  | member (start : Position) (object property : Node)
  | forStatement (start : Position) (init test step : Option Node) (body : Node)
  | identifier (start : Position) (name : String)
  | literal (start : Position) (raw : String)
  | assignment (start : Position) (operator : String) (left right : Node)
  | unsupported (start : Position)

/-- A declared name and its initial value. -/
inductive Declarator where
  | mk (id : Node) (init : Option Node)

end

deriving instance Repr for Node
deriving instance Repr for Declarator

namespace Node

def start : Node → Position
  | .expressionStatement start _ => start
  | .functionDeclaration start _ _ _ => start
  | .variableDeclaration start _ => start
  | .whileStatement start _ _ => start
  | .ifStatement start _ _ _ => start
  | .returnStatement start _ => start
  | .binary start _ _ _ => start
  | .unary start _ _ => start
  | .update start _ _ _ => start
  | .block start _ => start
  | .member start _ _ => start
  | .forStatement start _ _ _ _ => start
  | .identifier start _ => start
  | .literal start _ => start
  | .assignment start _ _ _ => start
  | .unsupported start => start

def line (n : Node) : UInt64 :=
  n.start.line

def kind : Node → Kind
  | .expressionStatement _ _ => .expressionStatement
  | .functionDeclaration _ _ _ _ => .functionDeclaration
  | .variableDeclaration _ _ => .variableDeclaration
  | .whileStatement _ _ _ => .whileStatement
  | .ifStatement _ _ _ _ => .ifStatement
  | .returnStatement _ _ => .returnStatement
  | .binary _ _ _ _ => .binary
  | .unary _ _ _ => .unary
  | .update _ _ _ _ => .update
  | .block _ _ => .block
  | .member _ _ _ => .member
  | .forStatement _ _ _ _ _ => .forStatement
  | .identifier _ _ => .identifier
  | .literal _ _ => .literal
  | .assignment _ _ _ _ => .assignment
  | .unsupported _ => .unsupported

def isBinary (n : Node) : Bool :=
  n.kind == .binary

/-- Whether a node is of a kind that is not told apart. -/
def isUnsupported (n : Node) : Bool :=
  n.kind == .unsupported

end Node

/-- A program: its statements in order. -/
structure Program where
  body : List Node
deriving Repr

end StatementTable
