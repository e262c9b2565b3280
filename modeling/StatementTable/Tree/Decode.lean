import StatementTable.Decode.Basic
import StatementTable.Tree.Node

/-!
# Decoding syntax trees

A node is an object with a `type` and the fields of the kind that the type selects.  The place of
a node is read first, then its type, then its fields in alphabetical order, and at last the
fields that are missing are reported in the order in which the kind lists them.  A node of an
unsupported kind is accepted whatever its fields are.
-/

namespace StatementTable.Decode

open Json (Value Members)

/-- Reads a position: an object with a line and a column, or an array of both.  What is left out
is zero. -/
def position (enclosure : Enclosure) : Value → Decoded Position
  | .object members => do
    let column ← member members "column" natural
    let line ← member members "line" natural
    return ⟨line.getD 0, column.getD 0⟩
  | .array [] => .ok ⟨0, 0⟩
  | .array [line] => do
    return ⟨← natural line, 0⟩
  | .array (line :: column :: rest) => do
    let line ← natural line
    let column ← natural column
    noMore enclosure 2 rest
    return ⟨line, column⟩
  | v => .error (.wrongType v .position)

/-- Reads a location: an object with a start, or an array of it. -/
def location (enclosure : Enclosure) : Value → Decoded Position
  | .object members => do
    return (← member members "start" (position enclosure)).getD ⟨0, 0⟩
  | .array [] => .ok ⟨0, 0⟩
  | .array (start :: rest) => do
    let start ← position enclosure start
    noMore enclosure 1 rest
    return start
  | v => .error (.wrongType v .location)

/-- Where a node starts, according to its members. -/
def start (enclosure : Enclosure) (members : Members) : Decoded Position := do
  return (← member members "loc" (location enclosure)).getD ⟨0, 0⟩

/-- Reads a type: the name of a kind, or its number. -/
def tag : Value → Decoded Kind
  | .string name => .ok (Kind.ofName name)
  | .number (.natural index) => .ok (Kind.ofIndex index.toNat)
  | v => .error (.wrongType v .tag)

/-- The kind of a node, according to its members. -/
def kind (members : Members) : Decoded Kind := do
  require "type" (← member members "type" tag)

/-- How the fields of a node are read, by what is expected in them. -/
structure FieldReader where
  /-- Reads a node. -/
  node : String → Decoded (Option Node)
  /-- Reads a node that may be absent or null. -/
  optionalNode : String → Decoded (Option Node)
  /-- Reads a list of nodes. -/
  nodes : String → Decoded (Option (List Node))
  /-- Reads a list of declarators. -/
  declarators : String → Decoded (Option (List Declarator))
  /-- Reads a text. -/
  text : String → Decoded (Option String)
  /-- Reads a truth value. -/
  flag : String → Decoded (Option Bool)

/-- Puts a node of the given kind together from its fields. -/
def assemble (read : FieldReader) (start : Position) : Kind → Decoded Node
  | .expressionStatement => do
    let expression ← read.node "expression"
    return .expressionStatement start (← require "expression" expression)
  | .functionDeclaration => do
    let body ← read.node "body"
    let id ← read.optionalNode "id"
    let params ← read.nodes "params"
    return .functionDeclaration start id (← require "params" params) (← require "body" body)
  | .variableDeclaration => do
    let declarations ← read.declarators "declarations"
    return .variableDeclaration start (← require "declarations" declarations)
  | .whileStatement => do
    let body ← read.node "body"
    let test ← read.node "test"
    return .whileStatement start (← require "test" test) (← require "body" body)
  | .ifStatement => do
    let alternate ← read.optionalNode "alternate"
    let consequent ← read.node "consequent"
    let test ← read.node "test"
    return .ifStatement start (← require "test" test) (← require "consequent" consequent)
      alternate
  | .returnStatement => do
    return .returnStatement start (← read.optionalNode "argument")
  | .binary => do
    let left ← read.node "left"
    let operator ← read.text "operator"
    let right ← read.node "right"
    return .binary start (← require "operator" operator) (← require "left" left)
      (← require "right" right)
  | .unary => do
    let argument ← read.node "argument"
    let operator ← read.text "operator"
    return .unary start (← require "operator" operator) (← require "argument" argument)
  | .update => do
    let argument ← read.node "argument"
    let operator ← read.text "operator"
    let leading ← read.flag "prefix"
    return .update start (← require "operator" operator) (← require "argument" argument)
      (← require "prefix" leading)
  | .block => do
    let body ← read.nodes "body"
    return .block start (← require "body" body)
  | .member => do
    let object ← read.node "object"
    let property ← read.node "property"
    return .member start (← require "object" object) (← require "property" property)
  | .forStatement => do
    let body ← read.node "body"
    let init ← read.optionalNode "init"
    let test ← read.optionalNode "test"
    let step ← read.optionalNode "update"
    return .forStatement start init test step (← require "body" body)
  | .identifier => do
    let name ← read.text "name"
    return .identifier start (← require "name" name)
  | .literal => do
    let raw ← read.text "raw"
    return .literal start (← require "raw" raw)
  | .assignment => do
    let left ← read.node "left"
    let operator ← read.text "operator"
    let right ← read.node "right"
    return .assignment start (← require "operator" operator) (← require "left" left)
      (← require "right" right)
  | .unsupported => .ok (.unsupported start)

mutual

def node (enclosure : Enclosure) (v : Value) : Decoded Node :=
  match v with
  | .object members => do
    let start ← start enclosure members
    let kind ← kind members
    assemble
      { node := fun key => memberWith members key fun v _ => node .inner v
        optionalNode := fun key => do
          return (← memberWith members key fun v _ => optionalNode v).join
        nodes := fun key => memberWith members key fun v _ => nodes .inner v
        declarators := fun key => memberWith members key fun v _ => declarators v
        text := fun key => member members key text
        flag := fun key => member members key flag }
      start kind
  | v => .error (.wrongType v .node)
termination_by 2 * sizeOf v
decreasing_by
  all_goals
    rename_i h
    have := Value.sizeOf_lt_of_mem_object h
    omega

def optionalNode (v : Value) : Decoded (Option Node) :=
  match v with
  | .null => .ok none
  | v => (node .inner v).map some
termination_by 2 * sizeOf v + 1

def nodes (enclosure : Enclosure) (v : Value) : Decoded (List Node) :=
  match v with
  | .array items => nodeList enclosure items
  | v => .error (.wrongType v .sequence)
termination_by 2 * sizeOf v

/-- Reads the items of an array of nodes. -/
def nodeList (enclosure : Enclosure) (items : List Value) : Decoded (List Node) :=
  match items with
  | [] => .ok []
  | item :: rest => do
    let first ← node enclosure item
    return first :: (← nodeList enclosure rest)
termination_by 2 * sizeOf items

def declarators (v : Value) : Decoded (List Declarator) :=
  match v with
  | .array items => declaratorList items
  | v => .error (.wrongType v .sequence)
termination_by 2 * sizeOf v

/-- Reads the items of an array of declarators. -/
def declaratorList (items : List Value) : Decoded (List Declarator) :=
  match items with
  | [] => .ok []
  | item :: rest => do
    let first ← declarator item
    return first :: (← declaratorList rest)
termination_by 2 * sizeOf items

/-- Reads a declarator: an object with a name and perhaps an initial value, or an array of
both. -/
def declarator (v : Value) : Decoded Declarator :=
  match v with
  | .object members => do
    let id ← memberWith members "id" fun v _ => node .inner v
    let init ← memberWith members "init" fun v _ => optionalNode v
    return .mk (← require "id" id) init.join
  | .array [] => .error (.tooShort 0 .declarator 2)
  | .array [id] => do
    let _ ← node .inner id
    .error (.tooShort 1 .declarator 2)
  | .array (id :: init :: rest) => do
    let id ← node .inner id
    let init ← optionalNode init
    noMore .inner 2 rest
    return .mk id init
  | v => .error (.wrongType v .declarator)
termination_by 2 * sizeOf v
decreasing_by
  · rename_i h
    have := Value.sizeOf_lt_of_mem_object h
    omega
  · rename_i h
    have := Value.sizeOf_lt_of_mem_object h
    omega
  all_goals
    simp
    omega

end

/-- Reads a program that is an object with a body. -/
def program : Value → Decoded Program
  | .object members => do
    return ⟨← require "body" (← member members "body" (nodes .outer))⟩
  | v => .error (.wrongType v .program)

end StatementTable.Decode
