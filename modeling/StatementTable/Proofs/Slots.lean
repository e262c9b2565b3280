import Mathlib.Data.List.Basic
import StatementTable.Flatten.Rows

/-!
# The slots of a node

A node holds its children in slots, and the role of a slot says what is expected there.  This
module lists the slots of every kind of node in the order of the source text and relates the walk
and the rows of a node to those of its children.  In every node the slots for expressions come
before the slots for statements, so that the rows a node adds by itself come before the rows of
the statements within it.
-/

namespace StatementTable

/-- What a slot of a node is for. -/
inductive Role where
  /-- An expression. -/
  | expression
  /-- The first clause of a `for` statement: an expression or a declaration. -/
  | forInit
  /-- A statement. -/
  | statement
  /-- The `else` branch of an `if` statement. -/
  | alternate
deriving DecidableEq, Repr

/-- The kinds of nodes that the rows of a label come from.  An `else` row is left out: it comes
from a node of any kind that is the branch of an `if` statement. -/
def Label.sources : Label → List Kind
  | .functionDeclaration => [.functionDeclaration]
  | .variableDeclaration => [.variableDeclaration, .functionDeclaration]
  | .assignment => [.expressionStatement]
  | .update => [.expressionStatement, .update]
  | .whileStatement => [.whileStatement]
  | .ifStatement => [.ifStatement]
  | .elseIf => [.ifStatement]
  | .elseBranch => []
  | .forStatement => [.forStatement]
  | .returnStatement => [.returnStatement]

def Declarator.parts : Declarator → List Node
  | .mk id init => id :: init.toList

namespace Node

/-- The slots of a node that hold a child, in the order of the source text. -/
def slots : Node → List (Role × Node)
  | .expressionStatement _ expression => [(.expression, expression)]
  | .functionDeclaration _ id params body =>
    id.toList.map (.expression, ·) ++ params.map (.expression, ·) ++ [(.statement, body)]
  | .variableDeclaration _ declarations =>
    (declarations.flatMap Declarator.parts).map (.expression, ·)
  | .whileStatement _ test body => [(.expression, test), (.statement, body)]
  | .ifStatement _ test consequent alternate =>
    (.expression, test) :: (.statement, consequent) :: alternate.toList.map (.alternate, ·)
  | .returnStatement _ argument => argument.toList.map (.expression, ·)
  | .binary _ _ left right => [(.expression, left), (.expression, right)]
  | .unary _ _ argument => [(.expression, argument)]
  | .update _ _ argument _ => [(.expression, argument)]
  | .block _ body => body.map (.statement, ·)
  | .member _ object property => [(.expression, object), (.expression, property)]
  | .forStatement _ init test step body =>
    init.toList.map (.forInit, ·) ++ test.toList.map (.expression, ·) ++
      step.toList.map (.expression, ·) ++ [(.statement, body)]
  | .assignment _ _ left right => [(.expression, left), (.expression, right)]
  | .identifier _ _ | .literal _ _ | .unsupported _ => []

/-- The children of a node in the order of the source text. -/
def children (n : Node) : List Node :=
  n.slots.map Prod.snd

/-- The children of a node in the slots of one role. -/
def inRole (role : Role) (n : Node) : List Node :=
  (n.slots.filter (·.1 = role)).map Prod.snd

/-- The children of a node that are read as text. -/
def operands (n : Node) : List Node :=
  (n.slots.filter fun slot => slot.1 = .expression ∨ slot.1 = .forInit).map Prod.snd

theorem snd_mem_children
    {n : Node} {slot : Role × Node} (hslot : slot ∈ n.slots) :
    slot.2 ∈ n.children :=
  List.mem_map_of_mem hslot

theorem mem_slots_of_mem_inRole
    {role : Role} {c n : Node} (hc : c ∈ n.inRole role) :
    (role, c) ∈ n.slots := by
  obtain ⟨slot, hslot, rfl⟩ := List.mem_map.mp hc
  obtain ⟨hslot, hrole⟩ := List.mem_filter.mp hslot
  rw [← of_decide_eq_true hrole]
  exact hslot

theorem mem_children_of_mem_inRole
    {role : Role} {c n : Node} (hc : c ∈ n.inRole role) :
    c ∈ n.children :=
  snd_mem_children (mem_slots_of_mem_inRole hc)

/-- In every node the operands come first and an `else` branch comes last. -/
theorem children_eq (n : Node) :
    n.children = n.operands ++ n.inRole .statement ++ n.inRole .alternate := by
  cases n <;>
    simp [children, operands, inRole, slots, List.filter_map, Function.comp_def]

section Operands

variable (start : Position) (init test step argument alternate id : Option Node)

@[simp] theorem operands_functionDeclaration (params : List Node) (body : Node) :
    (functionDeclaration start id params body).operands = id.toList ++ params := by
  simp [operands, slots, List.filter_map, Function.comp_def]

@[simp] theorem operands_variableDeclaration (declarations : List Declarator) :
    (variableDeclaration start declarations).operands =
      declarations.flatMap Declarator.parts := by
  simp [operands, slots, List.filter_map, Function.comp_def]

@[simp] theorem operands_ifStatement (condition consequent : Node) :
    (ifStatement start condition consequent alternate).operands = [condition] := by
  simp [operands, slots, List.filter_map, Function.comp_def]

@[simp] theorem operands_returnStatement :
    (returnStatement start argument).operands = argument.toList := by
  simp [operands, slots, List.filter_map, Function.comp_def]

@[simp] theorem operands_forStatement (body : Node) :
    (forStatement start init test step body).operands =
      init.toList ++ test.toList ++ step.toList := by
  simp [operands, slots, List.filter_map, Function.comp_def]

@[simp] theorem operands_block (body : List Node) :
    (block start body).operands = [] := by
  simp [operands, slots, List.filter_map, Function.comp_def]

end Operands

/-- Only an `if` statement has an `else` branch. -/
theorem inRole_alternate_cases (n : Node) :
    n.inRole .alternate = [] ∨
      ∃ start test consequent alternate,
        n = .ifStatement start test consequent (some alternate) := by
  cases n with
  | ifStatement start test consequent alternate =>
      cases alternate with
      | none => exact Or.inl (by simp [inRole, slots])
      | some alternate => exact Or.inr ⟨start, test, consequent, alternate, rfl⟩
  | _ => exact Or.inl (by simp [inRole, slots, List.filter_map, Function.comp_def])

/-! ## Induction over the children -/

theorem sizeOf_lt_of_mem_toList
    {c : Node} {o : Option Node} (hc : c ∈ o.toList) : sizeOf c < sizeOf o := by
  obtain rfl := Option.mem_toList.mp hc
  simp

theorem sizeOf_lt_of_mem_parts
    {c : Node} {declarator : Declarator} (hc : c ∈ declarator.parts) :
    sizeOf c < sizeOf declarator := by
  obtain ⟨id, init⟩ := declarator
  rw [Declarator.mk.sizeOf_spec]
  rcases List.mem_cons.mp hc with rfl | hinit
  · omega
  · have hlt := sizeOf_lt_of_mem_toList hinit
    omega

theorem sizeOf_lt_of_mem_children
    {c n : Node} (hc : c ∈ n.children) : sizeOf c < sizeOf n := by
  have hlist : ∀ {nodes : List Node}, c ∈ nodes → sizeOf c < sizeOf nodes :=
    List.sizeOf_lt_of_mem
  have hdeclarators : ∀ {declarations : List Declarator} {declarator : Declarator},
      declarator ∈ declarations → c ∈ declarator.parts →
        sizeOf c < sizeOf declarations := by
    intro declarations declarator hdeclarator hpart
    exact Nat.lt_trans (sizeOf_lt_of_mem_parts hpart)
      (List.sizeOf_lt_of_mem hdeclarator)
  cases n <;>
    simp [children, slots, Function.comp_def, -Option.mem_toList] at hc ⊢ <;>
    grind [sizeOf_lt_of_mem_toList]

/-- What holds of a node whenever it holds of its children holds of every node. -/
@[elab_as_elim]
theorem children_induction
    {motive : Node → Prop}
    (node : ∀ n, (∀ c ∈ n.children, motive c) → motive n) (n : Node) :
    motive n :=
  node n fun c _ => children_induction node c
termination_by sizeOf n
decreasing_by exact sizeOf_lt_of_mem_children ‹_›

/-! ## The walk -/

theorem walkOption_eq (o : Option Node) :
    walkOption o = o.toList.flatMap walk := by
  cases o <;> simp [walkOption]

theorem walkList_eq (nodes : List Node) :
    walkList nodes = nodes.flatMap walk := by
  induction nodes with
  | nil => simp [walkList]
  | cons n nodes ih => simp [walkList, ih]

theorem walkDeclarators_eq (declarations : List Declarator) :
    walkDeclarators declarations =
      (declarations.flatMap Declarator.parts).flatMap walk := by
  induction declarations with
  | nil => simp [walkDeclarators]
  | cons declarator rest ih =>
      obtain ⟨id, init⟩ := declarator
      simp [walkDeclarators, Declarator.parts, walkOption_eq, ih]

/-- A walk visits a node and then walks through its children. -/
theorem walk_eq (n : Node) :
    n.walk = n :: n.children.flatMap walk := by
  cases n <;>
    simp [walk, children, slots, walkOption_eq, walkList_eq, walkDeclarators_eq,
      Function.comp_def]

/-- The walk of a node, cut before the statements within it and before its `else` branch. -/
theorem walk_eq_append (n : Node) :
    n.walk =
      (n :: n.operands.flatMap walk) ++ (n.inRole .statement).flatMap walk ++
        (n.inRole .alternate).flatMap walk := by
  rw [walk_eq, children_eq]
  simp

theorem mem_walk_self (n : Node) : n ∈ n.walk := by
  rw [walk_eq]
  exact List.mem_cons_self

theorem walk_subset_of_mem_children
    {c n : Node} (hc : c ∈ n.children) : c.walk ⊆ n.walk := by
  intro m hm
  rw [walk_eq n]
  exact List.mem_cons_of_mem n (List.mem_flatMap_of_mem hc hm)

/-! ## The rows -/

/-- The rows that a node adds to those of the statements within it. -/
def ownRowsWith (fallback : Fallback) : Node → List Row
  | .expressionStatement start expression => [expressionRow fallback start.line expression]
  | .functionDeclaration start id params _ =>
    { line := start.line, label := .functionDeclaration, name := renderOptionWith fallback id } ::
      params.map (parameterRow fallback start.line)
  | .variableDeclaration start declarations =>
    declarations.map (Declarator.row fallback start.line)
  | .whileStatement start test _ =>
    [{ line := start.line, label := .whileStatement, condition := test.renderWith fallback }]
  | .ifStatement start test _ _ =>
    [{ line := start.line, label := .ifStatement, condition := test.renderWith fallback }]
  | .returnStatement start argument =>
    [{ line := start.line, label := .returnStatement,
       value := renderOptionWith fallback argument }]
  | .forStatement start init test step _ =>
    [{ line := start.line, label := .forStatement,
       condition := forCondition fallback init test step }]
  | .update start operator argument leading =>
    [{ line := start.line, label := .update,
       name := updateText operator (argument.renderWith fallback) leading }]
  | .unsupported start => (fallback start).toRows
  | .block _ _ | .binary _ _ _ _ | .unary _ _ _ | .member _ _ _ | .identifier _ _
  | .literal _ _ | .assignment _ _ _ _ => []

/-- The rows of a node in the slot of an `else` branch. -/
def elseRowsWith (fallback : Fallback) (n : Node) : List Row :=
  elseRows n.line (n.rowsWith fallback)

theorem initClause_of_kind_ne
    (fallback : Fallback) {n : Node} (hkind : n.kind ≠ .variableDeclaration) :
    initClause fallback (some n) = n.renderWith fallback := by
  cases n with
  | variableDeclaration start declarations => exact absurd rfl hkind
  | _ => rfl

theorem listRowsWith_eq (fallback : Fallback) (nodes : List Node) :
    listRowsWith fallback nodes = nodes.flatMap (rowsWith fallback) := by
  induction nodes with
  | nil => simp [listRowsWith]
  | cons n nodes ih => simp [listRowsWith, ih]

theorem alternateRowsWith_eq (fallback : Fallback) (o : Option Node) :
    alternateRowsWith fallback o = o.toList.flatMap (elseRowsWith fallback) := by
  cases o <;> simp [alternateRowsWith, elseRowsWith]

/-- The rows of a node are its own, then those of the statements within it, then those of its
`else` branch. -/
theorem rowsWith_eq (fallback : Fallback) (n : Node) :
    n.rowsWith fallback =
      n.ownRowsWith fallback ++
        (n.inRole .statement).flatMap (rowsWith fallback) ++
        (n.inRole .alternate).flatMap (elseRowsWith fallback) := by
  cases n <;>
    simp [rowsWith, ownRowsWith, inRole, slots, listRowsWith_eq, alternateRowsWith_eq,
      List.filter_map, Function.comp_def]

theorem expressionRow_line (fallback : Fallback) (line : UInt64) (expression : Node) :
    (expressionRow fallback line expression).line = line := by
  cases expression <;> rfl

theorem expressionRow_label (fallback : Fallback) (line : UInt64) (expression : Node) :
    (expressionRow fallback line expression).label = .assignment ∨
      (expressionRow fallback line expression).label = .update := by
  cases expression <;> simp [expressionRow]

/-- A row that a node adds by itself has the line of the node and a label of its kind.  An
`else if` row is never added but comes from relabelling. -/
theorem source_of_mem_ownRows
    {n : Node} {row : Row} (hrow : row ∈ n.ownRowsWith .skip) :
    row.line = n.line ∧ n.kind ∈ row.label.sources ∧ row.label ≠ .elseIf := by
  cases n with
  | expressionStatement start expression =>
      obtain rfl := List.mem_singleton.mp hrow
      refine ⟨expressionRow_line _ _ _, ?_⟩
      rcases expressionRow_label .skip start.line expression with hlabel | hlabel
      · simp [hlabel, kind, Label.sources]
      · simp [hlabel, kind, Label.sources]
  | functionDeclaration start id params body =>
      rcases List.mem_cons.mp hrow with rfl | hrow
      · exact ⟨rfl, by simp [kind, Label.sources]⟩
      · obtain ⟨param, -, rfl⟩ := List.mem_map.mp hrow
        exact ⟨rfl, by simp [parameterRow, kind, Label.sources]⟩
  | variableDeclaration start declarations =>
      obtain ⟨⟨id, init⟩, -, rfl⟩ := List.mem_map.mp hrow
      exact ⟨rfl, by simp [Declarator.row, kind, Label.sources]⟩
  | whileStatement | ifStatement | returnStatement | forStatement | update =>
      obtain rfl := List.mem_singleton.mp hrow
      exact ⟨rfl, by simp [kind, Label.sources]⟩
  | block | binary | unary | member | identifier | literal | assignment | unsupported =>
      exact absurd hrow List.not_mem_nil

end Node

/-- An `else` branch either has its first row relabelled or gets an `else` row in front. -/
theorem elseRows_cases (line : UInt64) (rows : List Row) :
    (∃ head tail, rows = head :: tail ∧ head.label = .ifStatement ∧
      elseRows line rows = head.relabel .elseIf :: tail) ∨
    ((∀ head ∈ rows.head?, head.label ≠ .ifStatement) ∧
      elseRows line rows = { line := line, label := .elseBranch } :: rows) := by
  cases rows with
  | nil => exact Or.inr ⟨by simp, rfl⟩
  | cons head tail =>
      by_cases hlabel : head.label = .ifStatement
      · exact Or.inl ⟨head, tail, rfl, hlabel, if_pos hlabel⟩
      · exact Or.inr ⟨by simpa using hlabel, if_neg hlabel⟩

theorem flattenWith_eq (fallback : Fallback) (statements : List Node) :
    flattenWith fallback statements = statements.flatMap (Node.rowsWith fallback) :=
  Node.listRowsWith_eq fallback statements

end StatementTable
