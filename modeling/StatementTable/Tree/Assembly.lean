import StatementTable.Tree.Node

/-!
# Putting trees together

Trees are put together bottom up on a stack, the top of the stack first in the list.  Each step
takes as many trees off the stack as it needs and puts one back, except that `drop` puts none
back and `block` takes them all.
-/

namespace StatementTable

namespace Node

/-- A statement that consists of an expression, on the line of the expression. -/
def statement (expression : Node) : Node :=
  .expressionStatement ⟨expression.line, 0⟩ expression

end Node

/-- A step of putting trees together. -/
inductive AssemblyStep where
  | identifier (line : UInt64) (name : String)
  | literal (line : UInt64) (raw : String)
  | unsupported (line : UInt64)
  | block (line : UInt64)
  | statement
  | unary (line : UInt64) (operator : String)
  | update (line : UInt64) (operator : String) (leading : Bool)
  | returnStatement (line : UInt64)
  | drop
  | binary (line : UInt64) (operator : String)
  | assignment (line : UInt64)
  | member (line : UInt64)
  | whileStatement (line : UInt64)
  | ifStatement (line : UInt64)

namespace AssemblyStep

/-- The stack after a step, or `none` if there are too few trees on it. -/
def apply (step : AssemblyStep) (stack : List Node) : Option (List Node) :=
  match step, stack with
  | .identifier line name, stack => some (.identifier ⟨line, 0⟩ name :: stack)
  | .literal line raw, stack => some (.literal ⟨line, 0⟩ raw :: stack)
  | .unsupported line, stack => some (.unsupported ⟨line, 0⟩ :: stack)
  | .block line, stack => some [.block ⟨line, 0⟩ stack.reverse]
  | .statement, a :: stack => some (a.statement :: stack)
  | .unary line operator, a :: stack => some (.unary ⟨line, 0⟩ operator a :: stack)
  | .update line operator leading, a :: stack =>
    some (.update ⟨line, 0⟩ operator a leading :: stack)
  | .returnStatement line, a :: stack => some (.returnStatement ⟨line, 0⟩ (some a) :: stack)
  | .drop, _ :: stack => some stack
  | .binary line operator, b :: a :: stack => some (.binary ⟨line, 0⟩ operator a b :: stack)
  | .assignment line, b :: a :: stack => some (.assignment ⟨line, 0⟩ "=" a b :: stack)
  | .member line, b :: a :: stack => some (.member ⟨line, 0⟩ a b :: stack)
  | .whileStatement line, b :: a :: stack => some (.whileStatement ⟨line, 0⟩ a b :: stack)
  | .ifStatement line, b :: a :: stack => some (.ifStatement ⟨line, 0⟩ a b none :: stack)
  | _, _ => none

end AssemblyStep

end StatementTable
