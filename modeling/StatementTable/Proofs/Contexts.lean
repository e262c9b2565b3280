import StatementTable.Proofs.Slots

/-!
# Nodes with a hole

A frame is a node in which one slot is left open.  Putting a node into the open slot completes
it, and a node deep inside another is reached through one frame after the other.  What a complete
node amounts to depends on the node in the slot only through the few things that a frame can look
at, so two nodes that agree on these can be exchanged in every slot.
-/

namespace StatementTable

/-- A node with one slot left open. -/
inductive Node.Frame where
  | expressionStatement (start : Position)
  | functionId (start : Position) (params : List Node) (body : Node)
  | parameter (start : Position) (id : Option Node) (before after : List Node) (body : Node)
  | functionBody (start : Position) (id : Option Node) (params : List Node)
  | declaredName (start : Position) (before : List Declarator) (init : Option Node)
      (after : List Declarator)
  | initialValue (start : Position) (before : List Declarator) (id : Node)
      (after : List Declarator)
  | whileTest (start : Position) (body : Node)
  | whileBody (start : Position) (test : Node)
  | ifTest (start : Position) (consequent : Node) (alternate : Option Node)
  | consequent (start : Position) (test : Node) (alternate : Option Node)
  | alternate (start : Position) (test consequent : Node)
  | returnArgument (start : Position)
  | leftOperand (start : Position) (operator : String) (right : Node)
  | rightOperand (start : Position) (operator : String) (left : Node)
  | unaryOperand (start : Position) (operator : String)
  | updateOperand (start : Position) (operator : String) (leading : Bool)
  | blockItem (start : Position) (before after : List Node)
  | memberObject (start : Position) (property : Node)
  | memberProperty (start : Position) (object : Node)
  | forInit (start : Position) (test step : Option Node) (body : Node)
  | forTest (start : Position) (init step : Option Node) (body : Node)
  | forStep (start : Position) (init test : Option Node) (body : Node)
  | forBody (start : Position) (init test step : Option Node)
  | assignmentTarget (start : Position) (operator : String) (right : Node)
  | assignedValue (start : Position) (operator : String) (left : Node)

namespace Node.Frame

/-- The node that a frame becomes with a node in its open slot. -/
def fill : Frame → Node → Node
  | .expressionStatement start, n => .expressionStatement start n
  | .functionId start params body, n => .functionDeclaration start (some n) params body
  | .parameter start id before after body, n =>
    .functionDeclaration start id (before ++ n :: after) body
  | .functionBody start id params, n => .functionDeclaration start id params n
  | .declaredName start before init after, n =>
    .variableDeclaration start (before ++ .mk n init :: after)
  | .initialValue start before id after, n =>
    .variableDeclaration start (before ++ .mk id (some n) :: after)
  | .whileTest start body, n => .whileStatement start n body
  | .whileBody start test, n => .whileStatement start test n
  | .ifTest start branch other, n => .ifStatement start n branch other
  | .consequent start test other, n => .ifStatement start test n other
  | .alternate start test branch, n => .ifStatement start test branch (some n)
  | .returnArgument start, n => .returnStatement start (some n)
  | .leftOperand start operator right, n => .binary start operator n right
  | .rightOperand start operator left, n => .binary start operator left n
  | .unaryOperand start operator, n => .unary start operator n
  | .updateOperand start operator leading, n => .update start operator n leading
  | .blockItem start before after, n => .block start (before ++ n :: after)
  | .memberObject start property, n => .member start n property
  | .memberProperty start object, n => .member start object n
  | .forInit start test step body, n => .forStatement start (some n) test step body
  | .forTest start init step body, n => .forStatement start init (some n) step body
  | .forStep start init test body, n => .forStatement start init test (some n) body
  | .forBody start init test step, n => .forStatement start init test step n
  | .assignmentTarget start operator right, n => .assignment start operator n right
  | .assignedValue start operator left, n => .assignment start operator left n

/-- Whether the open slot is for one statement that another statement governs: the body of a
function or of a loop, or a branch. -/
def isBody : Frame → Bool
  | .functionBody _ _ _ | .whileBody _ _ | .consequent _ _ _ | .alternate _ _ _
  | .forBody _ _ _ _ => true
  | _ => false

end Node.Frame

namespace Node

/-- Two nodes can be exchanged in every slot without a change to rows and texts. -/
structure SameRows (n m : Node) : Prop where
  line : n.line = m.line
  rows : n.rowsWith .skip = m.rowsWith .skip
  text : n.renderWith .skip = m.renderWith .skip
  binary : n.isBinary = m.isBinary
  clause : initClause .skip (some n) = initClause .skip (some m)
  statement : ∀ line, expressionRow .skip line n = expressionRow .skip line m

end Node

namespace Node.Frame

variable (frame : Frame) {n m : Node}

theorem start_fill : (frame.fill n).start = (frame.fill m).start := by
  cases frame <;> rfl

theorem kind_fill : (frame.fill n).kind = (frame.fill m).kind := by
  cases frame <;> rfl

open Node

theorem render_fill (h : SameRows n m) :
    (frame.fill n).renderWith .skip = (frame.fill m).renderWith .skip := by
  cases frame <;> simp only [fill, renderWith, h.text, h.binary]

theorem rows_fill (h : SameRows n m) :
    (frame.fill n).rowsWith .skip = (frame.fill m).rowsWith .skip := by
  cases frame <;>
    simp only [fill, rowsWith, renderOptionWith, forCondition, parameterRow, List.map_append,
      List.map_cons, Declarator.row, alternateRowsWith, listRowsWith_eq, List.flatMap_append,
      List.flatMap_cons, h.line, h.rows, h.text, h.clause, h.statement]

theorem initClause_fill (h : SameRows n m) :
    initClause .skip (some (frame.fill n)) = initClause .skip (some (frame.fill m)) := by
  cases frame with
  | declaredName start before init after =>
      cases init <;>
        simp only [fill, initClause, List.map_append, List.map_cons, Declarator.clause, h.text]
  | _ =>
      simp only [fill, initClause, renderOptionWith, renderWith, List.map_append, List.map_cons,
        Declarator.clause, h.text, h.binary]

theorem expressionRow_fill (h : SameRows n m) (line : UInt64) :
    expressionRow .skip line (frame.fill n) = expressionRow .skip line (frame.fill m) := by
  cases frame <;> simp only [fill, expressionRow, renderWith, h.text, h.binary]

/-- Nodes that can be exchanged can also be exchanged inside other nodes. -/
theorem sameRows_fill (h : SameRows n m) : SameRows (frame.fill n) (frame.fill m) where
  line := congrArg Position.line frame.start_fill
  rows := frame.rows_fill h
  text := frame.render_fill h
  binary := congrArg (· == Kind.binary) frame.kind_fill
  clause := frame.initClause_fill h
  statement := frame.expressionRow_fill h

/-- Of a body only the line and the rows count. -/
theorem sameRows_fill_of_isBody
    (hbody : frame.isBody = true) (hline : n.line = m.line)
    (hrows : n.rowsWith .skip = m.rowsWith .skip) :
    SameRows (frame.fill n) (frame.fill m) := by
  cases frame with
  | functionBody | whileBody | forBody | consequent | alternate =>
      refine ⟨rfl, ?_, rfl, rfl, rfl, fun _ => rfl⟩
      simp only [fill, rowsWith, alternateRowsWith, hline, hrows]
  | _ => exact absurd hbody Bool.false_ne_true

end Node.Frame

end StatementTable
