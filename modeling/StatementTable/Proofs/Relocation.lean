import StatementTable.Proofs.Slots

/-!
# Moving a program to other places

Moving every node of a tree to another line and column changes neither the kinds of the nodes nor
what they hold, so texts stay as they are.  Lines are taken from the nodes and put into rows and
reports without being looked at: no two lines are compared, and no column is read at all.  Hence
every result for the moved program is the result for the program itself with its lines moved.
-/

namespace StatementTable

/-- A place moved to another line and another column. -/
def Position.relocate (f g : UInt64 → UInt64) (place : Position) : Position :=
  ⟨f place.line, g place.column⟩

/-- A row moved to another line. -/
def Row.relocate (f : UInt64 → UInt64) (row : Row) : Row :=
  { row with line := f row.line }

namespace Node

mutual

/-- A node with every node in it moved to another place. -/
def relocate (f g : UInt64 → UInt64) : Node → Node
  | .expressionStatement start expression =>
    .expressionStatement (start.relocate f g) (relocate f g expression)
  | .functionDeclaration start id params body =>
    .functionDeclaration (start.relocate f g) (relocateOption f g id) (relocateList f g params)
      (relocate f g body)
  | .variableDeclaration start declarations =>
    .variableDeclaration (start.relocate f g) (relocateDeclarators f g declarations)
  | .whileStatement start test body =>
    .whileStatement (start.relocate f g) (relocate f g test) (relocate f g body)
  | .ifStatement start test consequent alternate =>
    .ifStatement (start.relocate f g) (relocate f g test) (relocate f g consequent)
      (relocateOption f g alternate)
  | .returnStatement start argument =>
    .returnStatement (start.relocate f g) (relocateOption f g argument)
  | .binary start operator left right =>
    .binary (start.relocate f g) operator (relocate f g left) (relocate f g right)
  | .unary start operator argument =>
    .unary (start.relocate f g) operator (relocate f g argument)
  | .update start operator argument leading =>
    .update (start.relocate f g) operator (relocate f g argument) leading
  | .block start body => .block (start.relocate f g) (relocateList f g body)
  | .member start object property =>
    .member (start.relocate f g) (relocate f g object) (relocate f g property)
  | .forStatement start init test step body =>
    .forStatement (start.relocate f g) (relocateOption f g init) (relocateOption f g test)
      (relocateOption f g step) (relocate f g body)
  | .identifier start name => .identifier (start.relocate f g) name
  | .literal start raw => .literal (start.relocate f g) raw
  | .assignment start operator left right =>
    .assignment (start.relocate f g) operator (relocate f g left) (relocate f g right)
  | .unsupported start => .unsupported (start.relocate f g)

def relocateOption (f g : UInt64 → UInt64) : Option Node → Option Node
  | none => none
  | some n => some (relocate f g n)

def relocateList (f g : UInt64 → UInt64) : List Node → List Node
  | [] => []
  | n :: ns => relocate f g n :: relocateList f g ns

def relocateDeclarators (f g : UInt64 → UInt64) : List Declarator → List Declarator
  | [] => []
  | .mk id init :: rest =>
    .mk (relocate f g id) (relocateOption f g init) :: relocateDeclarators f g rest

end

variable (f g : UInt64 → UInt64)

theorem relocateOption_eq (o : Option Node) :
    relocateOption f g o = o.map (relocate f g) := by
  cases o <;> simp [relocateOption]

theorem relocateList_eq (nodes : List Node) :
    relocateList f g nodes = nodes.map (relocate f g) := by
  induction nodes with
  | nil => simp [relocateList]
  | cons n nodes ih => simp [relocateList, ih]

end Node

def Declarator.relocate (f g : UInt64 → UInt64) : Declarator → Declarator
  | .mk id init => .mk (id.relocate f g) (init.map (Node.relocate f g))

namespace Node

variable (f g : UInt64 → UInt64)

theorem relocateDeclarators_eq (declarations : List Declarator) :
    relocateDeclarators f g declarations = declarations.map (Declarator.relocate f g) := by
  induction declarations with
  | nil => simp [relocateDeclarators]
  | cons declarator rest ih =>
      obtain ⟨id, init⟩ := declarator
      simp [relocateDeclarators, Declarator.relocate, relocateOption_eq, ih]

/-! ## The slots of a moved node -/

theorem start_relocate (n : Node) : (n.relocate f g).start = n.start.relocate f g := by
  cases n <;> simp [relocate, start]

theorem line_relocate (n : Node) : (n.relocate f g).line = f n.line := by
  rw [line, start_relocate]
  rfl

theorem kind_relocate (n : Node) : (n.relocate f g).kind = n.kind := by
  cases n <;> simp [relocate, kind]

theorem parts_relocate (declarator : Declarator) :
    (declarator.relocate f g).parts = declarator.parts.map (relocate f g) := by
  obtain ⟨id, init⟩ := declarator
  cases init <;> simp [Declarator.relocate, Declarator.parts]

/-- A moved node has the same slots, and they hold the moved children. -/
theorem slots_relocate (n : Node) :
    (n.relocate f g).slots = n.slots.map (Prod.map id (relocate f g)) := by
  cases n with
  | functionDeclaration start id params body =>
      cases id <;> simp [relocate, slots, relocateOption_eq, relocateList_eq]
  | variableDeclaration start declarations =>
      simp [relocate, slots, relocateDeclarators_eq, parts_relocate, List.flatMap_map,
        List.map_flatMap, Function.comp_def]
  | ifStatement start test consequent alternate =>
      cases alternate <;> simp [relocate, slots, relocateOption_eq]
  | returnStatement start argument =>
      cases argument <;> simp [relocate, slots, relocateOption_eq]
  | block start body => simp [relocate, slots, relocateList_eq]
  | forStatement start init test step body =>
      cases init <;> cases test <;> cases step <;> simp [relocate, slots, relocateOption_eq]
  | _ => simp [relocate, slots]

theorem children_relocate (n : Node) :
    (n.relocate f g).children = n.children.map (relocate f g) := by
  simp [children, slots_relocate]

theorem inRole_relocate (role : Role) (n : Node) :
    (n.relocate f g).inRole role = (n.inRole role).map (relocate f g) := by
  simp [inRole, slots_relocate, List.filter_map, Function.comp_def]

theorem walk_relocate (n : Node) :
    (n.relocate f g).walk = n.walk.map (relocate f g) := by
  induction n using children_induction with
  | node n ih =>
      rw [walk_eq, walk_eq n, children_relocate, List.flatMap_map, List.map_cons,
        List.map_flatMap, List.flatMap_congr ih]

/-! ## Texts -/

/-- The text of a node does not depend on where the node is. -/
theorem renderWith_relocate (n : Node) :
    (n.relocate f g).renderWith .skip = n.renderWith .skip := by
  induction n using children_induction with
  | node n ih =>
      cases n with
      | binary | unary | update | member | assignment =>
          simp [children, slots] at ih
          simp [relocate, renderWith, isBinary, kind_relocate, ih]
      | _ => simp [relocate, renderWith, Fallback.skip, Outcome.toText]

theorem renderOptionWith_relocate (o : Option Node) :
    renderOptionWith .skip (o.map (relocate f g)) = renderOptionWith .skip o := by
  cases o with
  | none => rfl
  | some n => exact n.renderWith_relocate f g

theorem clause_relocate (declarator : Declarator) :
    (declarator.relocate f g).clause .skip = declarator.clause .skip := by
  obtain ⟨id, init⟩ := declarator
  cases init <;> simp [Declarator.relocate, Declarator.clause, renderWith_relocate]

theorem initClause_relocate (init : Option Node) :
    initClause .skip (init.map (relocate f g)) = initClause .skip init := by
  cases init with
  | none => rfl
  | some n =>
      by_cases hkind : n.kind = .variableDeclaration
      · cases n with
        | variableDeclaration start declarations =>
            simp [relocate, initClause, relocateDeclarators_eq, Function.comp_def,
              clause_relocate]
        | _ => exact absurd hkind Kind.noConfusion
      · have hkind' : (n.relocate f g).kind ≠ .variableDeclaration := by
          rwa [kind_relocate]
        rw [Option.map_some, initClause_of_kind_ne .skip hkind,
          initClause_of_kind_ne .skip hkind', renderWith_relocate]

/-! ## Rows -/

theorem expressionRow_relocate (line : UInt64) (n : Node) :
    expressionRow .skip (f line) (n.relocate f g) =
      (expressionRow .skip line n).relocate f := by
  have htext := n.renderWith_relocate f g
  cases n with
  | assignment => simp [relocate, expressionRow, Row.relocate, renderWith_relocate]
  | _ =>
      simp only [relocate] at htext
      simp only [relocate, expressionRow, Row.relocate, htext]

theorem row_relocate (line : UInt64) (declarator : Declarator) :
    (declarator.relocate f g).row .skip (f line) = (declarator.row .skip line).relocate f := by
  obtain ⟨id, init⟩ := declarator
  simp [Declarator.relocate, Declarator.row, Row.relocate, renderWith_relocate,
    renderOptionWith_relocate]

theorem ownRowsWith_relocate (n : Node) :
    (n.relocate f g).ownRowsWith .skip = (n.ownRowsWith .skip).map (Row.relocate f) := by
  cases n with
  | expressionStatement start expression =>
      simp [relocate, ownRowsWith, Position.relocate, expressionRow_relocate]
  | functionDeclaration start id params body =>
      simp [relocate, ownRowsWith, Position.relocate, Row.relocate, parameterRow,
        relocateOption_eq, relocateList_eq, renderWith_relocate, renderOptionWith_relocate,
        Function.comp_def]
  | variableDeclaration start declarations =>
      simp [relocate, ownRowsWith, Position.relocate, relocateDeclarators_eq, row_relocate,
        Function.comp_def]
  | unsupported start => simp [relocate, ownRowsWith, Fallback.skip, Outcome.toRows]
  | _ =>
      simp [relocate, ownRowsWith, Position.relocate, Row.relocate, relocateOption_eq,
        renderWith_relocate, renderOptionWith_relocate, forCondition, initClause_relocate]

end Node

/-- Whether an `else` branch is an `else if` does not depend on lines. -/
theorem elseRows_relocate (f : UInt64 → UInt64) (line : UInt64) (rows : List Row) :
    elseRows (f line) (rows.map (Row.relocate f)) =
      (elseRows line rows).map (Row.relocate f) := by
  cases rows with
  | nil => rfl
  | cons head tail =>
      by_cases hlabel : head.label = .ifStatement
      · simp [elseRows, Row.relocate, Row.relabel, hlabel]
      · simp [elseRows, Row.relocate, hlabel]

theorem Node.rowsWith_relocate (f g : UInt64 → UInt64) (n : Node) :
    (n.relocate f g).rowsWith .skip = (n.rowsWith .skip).map (Row.relocate f) := by
  induction n using Node.children_induction with
  | node n ih =>
      have hstatements : (n.inRole .statement).flatMap
          (fun c => (c.relocate f g).rowsWith .skip) =
          (n.inRole .statement).flatMap fun c => (c.rowsWith .skip).map (Row.relocate f) :=
        List.flatMap_congr fun c hc => ih c (mem_children_of_mem_inRole hc)
      have halternate : (n.inRole .alternate).flatMap
          (fun c => (c.relocate f g).elseRowsWith .skip) =
          (n.inRole .alternate).flatMap
            fun c => (c.elseRowsWith .skip).map (Row.relocate f) := by
        apply List.flatMap_congr
        intro c hc
        rw [elseRowsWith, elseRowsWith, line_relocate, ih c (mem_children_of_mem_inRole hc),
          elseRows_relocate]
      rw [rowsWith_eq, rowsWith_eq .skip n, ownRowsWith_relocate, inRole_relocate,
        inRole_relocate, List.flatMap_map, List.flatMap_map, hstatements, halternate]
      simp [List.map_flatMap]

section Programs

variable (f g : UInt64 → UInt64) (statements : List Node)

theorem flatten_map_relocate :
    flatten (statements.map (Node.relocate f g)) =
      (flatten statements).map (Row.relocate f) := by
  simp [flatten, flattenWith_eq, List.flatMap_map, List.map_flatMap, Node.rowsWith_relocate]

theorem unsupportedLines_map_relocate :
    unsupportedLines (statements.map (Node.relocate f g)) =
      (unsupportedLines statements).map f := by
  have hkept : Node.isUnsupported ∘ Node.relocate f g = Node.isUnsupported := by
    funext n
    simp [Node.isUnsupported, Node.kind_relocate]
  have hwalk : Node.walkList (statements.map (Node.relocate f g)) =
      (Node.walkList statements).map (Node.relocate f g) := by
    simp [Node.walkList_eq, List.flatMap_map, List.map_flatMap, Node.walk_relocate]
  rw [unsupportedLines, hwalk, List.filter_map, hkept]
  simp [unsupportedLines, Node.line_relocate]

theorem flattenOptions_map_relocate (options : FlattenOptions) :
    options.flatten (statements.map (Node.relocate f g)) =
      ((options.flatten statements).mapError f).map (List.map (Row.relocate f)) := by
  obtain ⟨strict⟩ := options
  simp only [FlattenOptions.flatten, unsupportedLines_map_relocate, flatten_map_relocate]
  cases strict with
  | false => rfl
  | true =>
      cases unsupportedLines statements with
      | nil => rfl
      | cons line lines => rfl

/-- Lines are carried from nodes to rows and reports and never inspected, and columns are not even
carried. -/
theorem flatten_relocate :
    flatten (statements.map (Node.relocate f g)) =
        (flatten statements).map (Row.relocate f) ∧
      (∀ n : Node, (n.relocate f g).render = n.render) ∧
      unsupportedLines (statements.map (Node.relocate f g)) =
        (unsupportedLines statements).map f ∧
      ∀ options : FlattenOptions,
        options.flatten (statements.map (Node.relocate f g)) =
            ((options.flatten statements).mapError f).map (List.map (Row.relocate f)) ∧
          ∀ reported, options.flatten (statements.map (Node.relocate f g)) = .error reported ↔
            ∃ line, options.flatten statements = .error line ∧ f line = reported := by
  refine ⟨flatten_map_relocate f g statements, Node.renderWith_relocate f g,
    unsupportedLines_map_relocate f g statements, ?_⟩
  intro options
  refine ⟨flattenOptions_map_relocate f g statements options, ?_⟩
  intro reported
  rw [flattenOptions_map_relocate]
  cases options.flatten statements with
  | ok rows => simp [Except.mapError, Except.map]
  | error line => simp [Except.mapError, Except.map]

end Programs

end StatementTable
