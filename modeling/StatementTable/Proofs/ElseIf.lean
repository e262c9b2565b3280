import StatementTable.Proofs.Slots

/-!
# Else-if rows

Whether an `else` branch becomes an `else if` is decided by its first row.  The first row can be
told from the tree: it is an `if` row exactly if the branch is an `if` statement, or a block whose
first statement that has rows leads with an `if` in its turn.  In a chain of `if` statements each
of which is the `else` branch of the one before, every arm but the first is relabelled once, and
nothing else is.
-/

namespace StatementTable

/-- The first of the rows is an `if` row. -/
def BeginsWithIf (rows : List Row) : Prop :=
  ∃ head ∈ rows.head?, head.label = .ifStatement

namespace Node

/-! ## Nodes without rows -/

mutual

/-- Whether a node has no rows in the place of a statement. -/
def isRowless : Node → Bool
  | .unsupported _ | .binary _ _ _ _ | .unary _ _ _ | .member _ _ _ | .identifier _ _
  | .literal _ _ | .assignment _ _ _ _ => true
  | .variableDeclaration _ declarations => declarations.isEmpty
  | .block _ body => areRowless body
  | .expressionStatement _ _ | .functionDeclaration _ _ _ _ | .whileStatement _ _ _
  | .ifStatement _ _ _ _ | .returnStatement _ _ | .forStatement _ _ _ _ _
  | .update _ _ _ _ => false

def areRowless : List Node → Bool
  | [] => true
  | n :: rest => isRowless n && areRowless rest

end

theorem areRowless_eq (nodes : List Node) : areRowless nodes = nodes.all isRowless := by
  induction nodes with
  | nil => rw [areRowless, List.all_nil]
  | cons n nodes ih => rw [areRowless, List.all_cons, ih]

theorem rows_block (start : Position) (body : List Node) :
    (block start body).rows = body.flatMap rows := by
  rw [rows, rowsWith, listRowsWith_eq]
  rfl

theorem isRowless_iff (n : Node) : n.isRowless = true ↔ n.rows = [] := by
  induction n using children_induction with
  | node n ih =>
      cases n with
      | block start body =>
          rw [isRowless, areRowless_eq, rows_block, List.all_eq_true, List.flatMap_eq_nil_iff]
          apply forall₂_congr
          intro n hn
          exact ih n (by simp [children, slots, hn])
      | variableDeclaration start declarations =>
          rw [isRowless, rows, rowsWith, List.isEmpty_iff, List.map_eq_nil_iff]
      | _ => simp [isRowless, rows, rowsWith, Fallback.skip, Outcome.toRows]

/-! ## Nodes that lead with an `if` -/

mutual

/-- Whether a node leads with an `if` statement: it is one, or it is a block and its first
statement that has rows leads with one. -/
def leadsWithIf : Node → Bool
  | .ifStatement _ _ _ _ => true
  | .block _ body => firstLeadsWithIf body
  | _ => false

/-- Whether the first of the statements that has rows leads with an `if` statement. -/
def firstLeadsWithIf : List Node → Bool
  | [] => false
  | n :: rest => if isRowless n then firstLeadsWithIf rest else leadsWithIf n

end

theorem firstLeadsWithIf_eq (nodes : List Node) :
    firstLeadsWithIf nodes = (nodes.find? (!·.isRowless)).any leadsWithIf := by
  induction nodes with
  | nil => rw [firstLeadsWithIf, List.find?_nil, Option.any_none]
  | cons n nodes ih =>
      rw [firstLeadsWithIf, List.find?_cons]
      by_cases hrowless : n.isRowless
      · simp [hrowless, ih]
      · simp [hrowless]

/-- Rows put together begin as those of the first node that has any. -/
theorem beginsWithIf_flatMap (nodes : List Node) :
    BeginsWithIf (nodes.flatMap rows) ↔
      ∃ n, nodes.find? (!·.isRowless) = some n ∧ BeginsWithIf n.rows := by
  induction nodes with
  | nil => simp [BeginsWithIf]
  | cons n nodes ih =>
      rw [List.flatMap_cons, List.find?_cons]
      by_cases hrowless : n.isRowless = true
      · have hrows : n.rows = [] := (isRowless_iff n).mp hrowless
        rw [hrows, List.nil_append, ih, hrowless]
        rfl
      · have hrows : n.rows ≠ [] := fun hnil => hrowless ((isRowless_iff n).mpr hnil)
        simp [hrowless, BeginsWithIf, List.head?_append_of_ne_nil _ hrows]

/-- A node leads with an `if` statement exactly if its first row is an `if` row. -/
theorem leadsWithIf_iff (n : Node) : n.leadsWithIf = true ↔ BeginsWithIf n.rows := by
  induction n using children_induction with
  | node n ih =>
      cases n with
      | block start body =>
          rw [leadsWithIf, firstLeadsWithIf_eq, rows_block, beginsWithIf_flatMap,
            Option.any_eq_true]
          apply exists_congr
          intro n
          apply and_congr_right
          intro hfind
          have hn : n ∈ body := List.mem_of_find?_eq_some hfind
          exact ih n (by simp [children, slots, hn])
      | ifStatement start test consequent alternate =>
          simp [leadsWithIf, rows, rowsWith, BeginsWithIf]
      | expressionStatement start expression =>
          rcases expressionRow_label .skip start.line expression with hlabel | hlabel
          · simp [leadsWithIf, rows, rowsWith, BeginsWithIf, hlabel]
          · simp [leadsWithIf, rows, rowsWith, BeginsWithIf, hlabel]
      | variableDeclaration start declarations =>
          cases declarations with
          | nil => simp [leadsWithIf, rows, rowsWith, BeginsWithIf]
          | cons declarator rest =>
              obtain ⟨id, init⟩ := declarator
              simp [leadsWithIf, rows, rowsWith, BeginsWithIf, Declarator.row]
      | _ =>
          simp [leadsWithIf, rows, rowsWith, BeginsWithIf, Fallback.skip, Outcome.toRows]

end Node

/-! ## Branches -/

section Branches

variable {line : UInt64} {rows : List Row}

theorem elseRows_of_beginsWithIf (h : BeginsWithIf rows) :
    ∃ head tail, rows = head :: tail ∧ head.label = .ifStatement ∧
      elseRows line rows = { head with label := .elseIf } :: tail := by
  obtain ⟨first, hfirst, hlabel⟩ := h
  rcases elseRows_cases line rows with hcollapse | ⟨hother, -⟩
  · exact hcollapse
  · exact absurd hlabel (hother first hfirst)

theorem elseRows_of_not_beginsWithIf (h : ¬BeginsWithIf rows) :
    elseRows line rows = { line := line, label := .elseBranch } :: rows := by
  obtain ⟨head, tail, rfl, hlabel, -⟩ | ⟨-, heq⟩ := elseRows_cases line rows
  · exact absurd ⟨head, rfl, hlabel⟩ h
  · exact heq

end Branches

/-- The rows of an `if` statement with an `else` branch are its own row, those of the statement
under the test, and those of the branch.  If the branch leads with an `if` statement, the first of
its rows gets another label, and otherwise an `else` row is put in front of them.  The statements
that are passed over in finding out what leads are exactly those without rows. -/
theorem Node.rows_ifStatement_alternate :
    (∀ n : Node, n.isRowless = true ↔ n.rows = []) ∧
    ∀ (start : Position) (test consequent alternate : Node), ∃ branch,
      (ifStatement start test consequent (some alternate)).rows =
        { line := start.line, label := .ifStatement, condition := test.render } ::
          consequent.rows ++ branch ∧
      if alternate.leadsWithIf then
        ∃ head tail, alternate.rows = head :: tail ∧ head.label = .ifStatement ∧
          branch = { head with label := .elseIf } :: tail
      else
        branch = { line := alternate.line, label := .elseBranch } :: alternate.rows := by
  refine ⟨isRowless_iff, ?_⟩
  intro start test consequent alternate
  refine ⟨elseRows alternate.line alternate.rows, ?_, ?_⟩
  · rw [rows, rowsWith, alternateRowsWith]
    rfl
  · split
    · case isTrue hleads =>
        exact elseRows_of_beginsWithIf ((leadsWithIf_iff alternate).mp hleads)
    · case isFalse hleads =>
        exact elseRows_of_not_beginsWithIf fun h => hleads ((leadsWithIf_iff alternate).mpr h)

example :
    (Node.block ⟨2, 5⟩
      [.unsupported ⟨2, 7⟩, .block ⟨3, 2⟩ [.variableDeclaration ⟨3, 4⟩ []],
        .block ⟨4, 2⟩ [.ifStatement ⟨4, 4⟩ (.identifier ⟨4, 8⟩ "x") (.block ⟨4, 11⟩ []) none],
        .returnStatement ⟨5, 2⟩ none]).leadsWithIf = true :=
  rfl

/-! ## Chains -/

/-- A test of a chain with the statement under it. -/
structure Arm where
  start : Position
  test : Node
  consequent : Node

namespace Arm

def statement (arm : Arm) (alternate : Option Node) : Node :=
  .ifStatement arm.start arm.test arm.consequent alternate

/-- A chain of arms, each in the `else` branch of the one before.  The last arm may have an `else`
branch too. -/
def chain : Arm → List Arm → Option Node → Node
  | arm, [], last => arm.statement last
  | arm, next :: rest, last => arm.statement (some (chain next rest last))

/-- The rows of an arm, the first of which has the given label. -/
def rows (label : Label) (arm : Arm) : List Row :=
  { line := arm.start.line, label := label, condition := arm.test.render } :: arm.consequent.rows

theorem rows_statement (arm : Arm) (alternate : Option Node) :
    (arm.statement alternate).rows =
      arm.rows .ifStatement ++ Node.alternateRowsWith .skip alternate := by
  rw [statement, Node.rows, Node.rowsWith]
  rfl

/-- In the place of an `else` branch the first row of an arm is relabelled, and what follows the
row stays. -/
theorem elseRows_rows (line : UInt64) (arm : Arm) (following : List Row) :
    elseRows line (arm.rows .ifStatement ++ following) = arm.rows .elseIf ++ following := by
  rw [rows, List.cons_append, elseRows, if_pos rfl]
  rfl

/-- Every arm but the first is relabelled once, by the arm before it. -/
theorem rows_chain (first : Arm) (rest : List Arm) (last : Option Node) :
    (first.chain rest last).rows =
      first.rows .ifStatement ++
        (rest.flatMap (rows .elseIf) ++ Node.alternateRowsWith .skip last) := by
  induction rest generalizing first with
  | nil => exact first.rows_statement last
  | cons next rest ih =>
      have hbranch : Node.alternateRowsWith .skip (some (next.chain rest last)) =
          elseRows (next.chain rest last).line (next.chain rest last).rows := by
        rw [Node.alternateRowsWith, Node.rows]
      rw [chain, rows_statement, hbranch, ih, elseRows_rows, List.flatMap_cons,
        List.append_assoc]

end Arm

/-- The rows of a chain are those of its arms, the first under an `if` row and the others under
`else if` rows, and then those of the last `else` branch under an `else` row. -/
theorem flatten_chain
    (first : Arm) (rest : List Arm) (last : Option Node)
    (hlast : ∀ branch ∈ last, ¬BeginsWithIf branch.rows) :
    flatten [first.chain rest last] =
      first.rows .ifStatement ++ rest.flatMap (Arm.rows .elseIf) ++
        last.toList.flatMap fun branch =>
          { line := branch.line, label := .elseBranch } :: branch.rows := by
  have hflatten : flatten [first.chain rest last] = (first.chain rest last).rows := by
    rw [flatten, flattenWith_eq, List.flatMap_singleton, Node.rows]
  rw [hflatten, Arm.rows_chain, List.append_assoc]
  congr 2
  cases last with
  | none => rw [Node.alternateRowsWith, Option.toList_none, List.flatMap_nil]
  | some branch =>
      rw [Node.alternateRowsWith, Option.toList_some, List.flatMap_singleton]
      exact elseRows_of_not_beginsWithIf (hlast branch rfl)

/-- Under the first test of the chain stands a chain of its own, which keeps its labels.  The last
branch begins with a loop around an `if` statement, so it gets an `else` row. -/
theorem flatten_chain_nested :
    let arm (line : UInt64) (test : String) (consequent : Node) : Arm :=
      ⟨⟨line, 0⟩, .identifier ⟨line, 4⟩ test, consequent⟩
    let stop (line : UInt64) : Node := .returnStatement ⟨line, 9⟩ none
    let inner := (arm 2 "y" (stop 2)).chain [arm 3 "z" (stop 3)] none
    let loop : Node := .whileStatement ⟨5, 7⟩ (.identifier ⟨5, 14⟩ "w") inner
    (∀ branch ∈ some loop, ¬BeginsWithIf branch.rows) ∧
      (flatten [(arm 1 "x" inner).chain [arm 4 "v" (stop 4)] (some loop)]).map Row.label =
        [.ifStatement, .ifStatement, .returnStatement, .elseIf, .returnStatement,
          .elseIf, .returnStatement,
          .elseBranch, .whileStatement, .ifStatement, .returnStatement, .elseIf,
          .returnStatement] := by
  intro arm stop inner loop
  have hloop : ∀ branch ∈ some loop, ¬BeginsWithIf branch.rows := by
    rintro branch ⟨⟩ ⟨head, ⟨⟩, hlabel⟩
    exact absurd hlabel (by decide)
  refine ⟨hloop, ?_⟩
  rw [flatten_chain (arm 1 "x" inner) [arm 4 "v" (stop 4)] (some loop) hloop]
  rfl

end StatementTable
