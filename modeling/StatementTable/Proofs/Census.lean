import Mathlib
import StatementTable.Proofs.ElseBranches

/-!
# A census of the rows

The rows of a program can be counted without flattening it.  Only nodes in the place of a
statement have rows, and each of them has as many as its kind and its parts say.  An `else if`
row takes the place of an `if` row and of an `else` row at once.  So the three labels cannot be
counted apart, but the `if` statements and those with an `else` branch can.

The counts are all instances of one equation about a weight of labels under which an `else if`
row weighs as much as an `if` row and an `else` row together.
-/

namespace StatementTable

namespace Node

mutual

/-- The nodes of a tree that stand in the place of a statement, the tree itself included. -/
def statementNodes : Node → List Node
  | n@(.functionDeclaration _ _ _ body) => n :: statementNodes body
  | n@(.whileStatement _ _ body) => n :: statementNodes body
  | n@(.forStatement _ _ _ _ body) => n :: statementNodes body
  | n@(.ifStatement _ _ consequent alternate) =>
    n :: statementNodes consequent ++ optionStatementNodes alternate
  | n@(.block _ body) => n :: listStatementNodes body
  | n => [n]

def optionStatementNodes : Option Node → List Node
  | none => []
  | some n => statementNodes n

def listStatementNodes : List Node → List Node
  | [] => []
  | n :: ns => statementNodes n ++ listStatementNodes ns

end

def declaratorCount : Node → Nat
  | .variableDeclaration _ declarations => declarations.length
  | _ => 0

def parameterCount : Node → Nat
  | .functionDeclaration _ _ params _ => params.length
  | _ => 0

def isAssignmentStatement : Node → Bool
  | .expressionStatement _ (.assignment _ _ _ _) => true
  | _ => false

/-- Whether a node is an `if` statement with an `else` branch. -/
def hasAlternate : Node → Bool
  | .ifStatement _ _ _ alternate => alternate.isSome
  | _ => false

end Node

def kindCount (kind : Kind) (nodes : List Node) : Nat :=
  nodes.countP (·.kind = kind)

/-- A row comes from one of the nodes: it is a row of that node, perhaps relabelled as an
`else if` row, or the node is the branch of an `if` statement among the nodes and the row is its
`else` row. -/
def ContributedBy (nodes : List Node) (row : Row) : Prop :=
  ∃ n ∈ nodes,
    row ∈ n.ownRowsWith .skip ∨
    (∃ own ∈ n.ownRowsWith .skip, own.label = .ifStatement ∧ row = own.relabel .elseIf) ∨
    (row = { line := n.line, label := .elseBranch } ∧ ∃ m ∈ nodes, n ∈ m.inRole .alternate)

namespace Node

theorem listStatementNodes_eq (nodes : List Node) :
    listStatementNodes nodes = nodes.flatMap statementNodes := by
  induction nodes with
  | nil => simp [listStatementNodes]
  | cons n nodes ih => simp [listStatementNodes, ih]

/-- The nodes in the place of a statement are the node itself and those of its statements and of
its `else` branch. -/
theorem statementNodes_eq (n : Node) :
    n.statementNodes =
      n :: ((n.inRole .statement).flatMap statementNodes ++
        (n.inRole .alternate).flatMap statementNodes) := by
  cases n with
  | ifStatement start test consequent alternate =>
      cases alternate <;> simp [statementNodes, optionStatementNodes, inRole, slots]
  | _ =>
      simp [statementNodes, listStatementNodes_eq, inRole, slots, List.filter_map,
        Function.comp_def]

theorem mem_statementNodes_self (n : Node) : n ∈ n.statementNodes := by
  rw [statementNodes_eq]
  exact List.mem_cons_self

theorem statementNodes_subset
    {c n : Node} {role : Role} (hrole : role = .statement ∨ role = .alternate)
    (hc : c ∈ n.inRole role) : c.statementNodes ⊆ n.statementNodes := by
  intro m hm
  rw [statementNodes_eq n]
  apply List.mem_cons_of_mem
  rcases hrole with rfl | rfl
  · exact List.mem_append_left _ (List.mem_flatMap_of_mem hc hm)
  · exact List.mem_append_right _ (List.mem_flatMap_of_mem hc hm)

end Node

/-! ## Weighing rows -/

/-- The sum of the weights of the labels of rows. -/
def tally (weight : Label → Nat) (rows : List Row) : Nat :=
  (rows.map fun row => weight row.label).sum

/-- The weight under which only the rows of one label count. -/
def Label.weight (label : Label) : Label → Nat :=
  fun l => if l = label then 1 else 0

/-- An `else if` row weighs as much as an `if` row and an `else` row together. -/
def Balanced (weight : Label → Nat) : Prop :=
  weight .elseIf = weight .ifStatement + weight .elseBranch

instance (weight : Label → Nat) : Decidable (Balanced weight) :=
  inferInstanceAs (Decidable (_ = _))

theorem sum_map_flatMap
    {α β : Type} (size : β → Nat) (parts : α → List β) (items : List α) :
    ((items.flatMap parts).map size).sum =
      (items.map fun item => ((parts item).map size).sum).sum := by
  induction items with
  | nil => rfl
  | cons item items ih =>
      rw [List.flatMap_cons, List.map_append, List.sum_append, ih, List.map_cons, List.sum_cons]

theorem sum_map_eq_countP
    {α : Type} {size : α → Nat} {p : α → Bool} (h : ∀ a, size a = if p a then 1 else 0)
    (items : List α) : (items.map size).sum = items.countP p := by
  induction items with
  | nil => rfl
  | cons item items ih =>
      rw [List.map_cons, List.sum_cons, ih, h, List.countP_cons, Nat.add_comm]

section Weighing

variable {weight : Label → Nat}

theorem tally_cons (row : Row) (rows : List Row) :
    tally weight (row :: rows) = weight row.label + tally weight rows := by
  simp [tally]

theorem tally_append (rows₁ rows₂ : List Row) :
    tally weight (rows₁ ++ rows₂) = tally weight rows₁ + tally weight rows₂ := by
  simp [tally]

theorem tally_flatMap (rowsOf : Node → List Row) (nodes : List Node) :
    tally weight (nodes.flatMap rowsOf) = (nodes.map fun n => tally weight (rowsOf n)).sum :=
  sum_map_flatMap _ rowsOf nodes

theorem tally_add (weight₁ weight₂ : Label → Nat) (rows : List Row) :
    tally (fun label => weight₁ label + weight₂ label) rows =
      tally weight₁ rows + tally weight₂ rows :=
  List.sum_map_add

/-- An `else` branch adds the weight of an `else` row, whether it has such a row or not. -/
theorem tally_elseRows (hweight : Balanced weight) (line : UInt64) (rows : List Row) :
    tally weight (elseRows line rows) = weight .elseBranch + tally weight rows := by
  obtain ⟨head, tail, rfl, hlabel, heq⟩ | ⟨-, heq⟩ := elseRows_cases line rows
  · have hhead : weight .elseIf = weight .elseBranch + weight head.label := by
      rw [hlabel, hweight, Nat.add_comm]
    rw [heq, tally_cons, tally_cons, Row.relabel, hhead, Nat.add_assoc]
  · rw [heq, tally_cons]

theorem tally_map
    {α : Type} {label : Label} (rowOf : α → Row) (h : ∀ a, (rowOf a).label = label)
    (items : List α) : tally weight (items.map rowOf) = items.length * weight label := by
  simp [tally, Function.comp_def, h]

theorem tally_weight (label : Label) (rows : List Row) :
    tally label.weight rows = labelCount label rows :=
  sum_map_eq_countP (fun _ => by simp [Label.weight]) rows

end Weighing

namespace Node

/-- The weight of the rows that a node adds to those of the statements within it.  The `else`
row of a branch is put down to the `if` statement. -/
def share (weight : Label → Nat) : Node → Nat
  | n@(.expressionStatement _ _) =>
    if n.isAssignmentStatement then weight .assignment else weight .update
  | .functionDeclaration _ _ params _ =>
    weight .functionDeclaration + params.length * weight .variableDeclaration
  | .variableDeclaration _ declarations => declarations.length * weight .variableDeclaration
  | .whileStatement _ _ _ => weight .whileStatement
  | .ifStatement _ _ _ alternate =>
    weight .ifStatement + if alternate.isSome then weight .elseBranch else 0
  | .returnStatement _ _ => weight .returnStatement
  | .forStatement _ _ _ _ _ => weight .forStatement
  | .update _ _ _ _ => weight .update
  | .block _ _ | .binary _ _ _ _ | .unary _ _ _ | .member _ _ _ | .identifier _ _
  | .literal _ _ | .assignment _ _ _ _ | .unsupported _ => 0

theorem share_eq (weight : Label → Nat) (n : Node) :
    n.share weight =
      tally weight (n.ownRowsWith .skip) +
        (n.inRole .alternate).length * weight .elseBranch := by
  cases n with
  | expressionStatement start expression =>
      cases expression <;>
        simp [share, isAssignmentStatement, ownRowsWith, expressionRow, tally, inRole, slots]
  | functionDeclaration start id params body =>
      have hparams : tally weight (params.map (parameterRow .skip start.line)) =
          params.length * weight .variableDeclaration :=
        tally_map (parameterRow .skip start.line) (fun _ => rfl) params
      simp [share, ownRowsWith, tally_cons, hparams, inRole, slots, List.filter_map,
        Function.comp_def]
  | variableDeclaration start declarations =>
      have hrows : tally weight (declarations.map (Declarator.row .skip start.line)) =
          declarations.length * weight .variableDeclaration := by
        refine tally_map (Declarator.row .skip start.line) (fun declarator => ?_) declarations
        cases declarator
        rfl
      simp [share, ownRowsWith, hrows, inRole, slots, List.filter_map, Function.comp_def]
  | ifStatement start test consequent alternate =>
      cases alternate <;> simp [share, ownRowsWith, tally, inRole, slots]
  | unsupported start =>
      simp [share, ownRowsWith, Fallback.skip, Outcome.toRows, tally, inRole, slots]
  | _ => simp [share, ownRowsWith, tally, inRole, slots, List.filter_map, Function.comp_def]

/-- The rows of a node weigh as much as the shares of the nodes in the place of a statement.  A
branch weighs one `else` row more than its node, whether it gets that row or its first row becomes
an `else if` row. -/
theorem tally_rows
    {weight : Label → Nat} (hweight : Balanced weight) (n : Node) :
    tally weight (n.rowsWith .skip) = (n.statementNodes.map (share weight)).sum := by
  induction n using children_induction with
  | node n ih =>
      have hrole : ∀ role, ∀ c ∈ n.inRole role,
          tally weight (c.rowsWith .skip) = (c.statementNodes.map (share weight)).sum :=
        fun role c hc => ih c (mem_children_of_mem_inRole hc)
      have hstatement : tally weight ((n.inRole .statement).flatMap (rowsWith .skip)) =
          (((n.inRole .statement).flatMap statementNodes).map (share weight)).sum := by
        rw [tally_flatMap, sum_map_flatMap]
        exact congrArg List.sum (List.map_congr_left (hrole .statement))
      have helse : ∀ c ∈ n.inRole .alternate, tally weight (c.elseRowsWith .skip) =
          weight .elseBranch + (c.statementNodes.map (share weight)).sum := by
        intro c hc
        rw [elseRowsWith, tally_elseRows hweight, hrole .alternate c hc]
      have halternate : tally weight ((n.inRole .alternate).flatMap (elseRowsWith .skip)) =
          (n.inRole .alternate).length * weight .elseBranch +
            (((n.inRole .alternate).flatMap statementNodes).map (share weight)).sum := by
        rw [tally_flatMap, List.map_congr_left helse, List.sum_map_add, sum_map_flatMap]
        simp
      rw [rowsWith_eq, tally_append, tally_append, hstatement, halternate, statementNodes_eq,
        List.map_cons, List.sum_cons, List.map_append, List.sum_append, share_eq]
      omega

end Node

/-! ## The nodes that rows come from -/

theorem ContributedBy.mono
    {nodes₁ nodes₂ : List Node} {row : Row} (h : ContributedBy nodes₁ row)
    (hsubset : nodes₁ ⊆ nodes₂) : ContributedBy nodes₂ row := by
  obtain ⟨n, hn, hown | hrelabel | ⟨hrow, m, hm, halternate⟩⟩ := h
  · exact ⟨n, hsubset hn, Or.inl hown⟩
  · exact ⟨n, hsubset hn, Or.inr (Or.inl hrelabel)⟩
  · exact ⟨n, hsubset hn, Or.inr (Or.inr ⟨hrow, m, hsubset hm, halternate⟩)⟩

/-- An `if` row is a row of a node as it stands, so it may be relabelled. -/
theorem ContributedBy.relabel
    {nodes : List Node} {row : Row} (h : ContributedBy nodes row)
    (hlabel : row.label = .ifStatement) : ContributedBy nodes (row.relabel .elseIf) := by
  obtain ⟨n, hn, hown | ⟨own, -, -, rfl⟩ | ⟨rfl, -⟩⟩ := h
  · exact ⟨n, hn, Or.inr (Or.inl ⟨row, hown, hlabel, rfl⟩)⟩
  · cases hlabel
  · cases hlabel

namespace Node

/-- Every row of a node comes from a node in the place of a statement. -/
theorem contributedBy_statementNodes (n : Node) :
    ∀ row ∈ n.rowsWith .skip, ContributedBy n.statementNodes row := by
  induction n using children_induction with
  | node n ih =>
      intro row hrow
      rw [rowsWith_eq] at hrow
      rcases List.mem_append.mp hrow with hrow | hrow
      · rcases List.mem_append.mp hrow with hown | hstatement
        · exact ⟨n, n.mem_statementNodes_self, Or.inl hown⟩
        · obtain ⟨c, hc, hrow⟩ := List.mem_flatMap.mp hstatement
          exact (ih c (mem_children_of_mem_inRole hc) row hrow).mono
            (statementNodes_subset (Or.inl rfl) hc)
      · obtain ⟨c, hc, hrow⟩ := List.mem_flatMap.mp hrow
        have hsubset := statementNodes_subset (Or.inr rfl) hc
        have hbranch : ∀ row ∈ c.rowsWith .skip, ContributedBy n.statementNodes row :=
          fun row hrow => (ih c (mem_children_of_mem_inRole hc) row hrow).mono hsubset
        rw [elseRowsWith] at hrow
        obtain ⟨head, tail, heq, hlabel, helse⟩ | ⟨-, helse⟩ :=
          elseRows_cases c.line (c.rowsWith .skip)
        · rw [heq] at hbranch
          rw [helse] at hrow
          rcases List.mem_cons.mp hrow with rfl | hrow
          · exact (hbranch head List.mem_cons_self).relabel hlabel
          · exact hbranch row (List.mem_cons_of_mem head hrow)
        · rw [helse] at hrow
          rcases List.mem_cons.mp hrow with rfl | hrow
          · exact ⟨c, hsubset c.mem_statementNodes_self,
              Or.inr (Or.inr ⟨rfl, n, n.mem_statementNodes_self, hc⟩)⟩
          · exact hbranch row hrow

end Node

theorem contributedBy_of_mem_flatten
    {statements : List Node} {row : Row} (hrow : row ∈ flatten statements) :
    ContributedBy (statements.flatMap Node.statementNodes) row := by
  rw [flatten, flattenWith_eq] at hrow
  obtain ⟨n, hn, hrow⟩ := List.mem_flatMap.mp hrow
  exact (n.contributedBy_statementNodes row hrow).mono
    fun m hm => List.mem_flatMap_of_mem hn hm

/-! ## The counts -/

theorem tally_flatten
    {weight : Label → Nat} (hweight : Balanced weight) (statements : List Node) :
    tally weight (flatten statements) =
      ((statements.flatMap Node.statementNodes).map (Node.share weight)).sum := by
  rw [flatten, flattenWith_eq, tally_flatMap, sum_map_flatMap]
  exact congrArg List.sum (List.map_congr_left fun n _ => n.tally_rows hweight)

/-- If every node has one row of a label, or none, the rows of the label are counted by the nodes
that have one. -/
theorem tally_flatten_eq_countP
    {weight : Label → Nat} {p : Node → Bool} (hweight : Balanced weight)
    (hshare : ∀ n, Node.share weight n = if p n then 1 else 0) (statements : List Node) :
    tally weight (flatten statements) =
      (statements.flatMap Node.statementNodes).countP p := by
  rw [tally_flatten hweight, sum_map_eq_countP hshare]

/-- Labels that exactly the statements of one kind have, once each. -/
def soleLabels : List (Label × Kind) :=
  [(.functionDeclaration, .functionDeclaration), (.whileStatement, .whileStatement),
    (.forStatement, .forStatement), (.returnStatement, .returnStatement)]

theorem labelCount_flatten_of_mem_soleLabels
    {label : Label} {kind : Kind} (h : (label, kind) ∈ soleLabels) (statements : List Node) :
    labelCount label (flatten statements) =
      kindCount kind (statements.flatMap Node.statementNodes) := by
  have hweight : ∀ pair ∈ soleLabels, Balanced pair.1.weight := by decide
  rw [← tally_weight]
  apply tally_flatten_eq_countP (hweight _ h)
  intro n
  simp only [soleLabels, List.mem_cons, Prod.mk.injEq, List.not_mem_nil, or_false] at h
  obtain ⟨rfl, rfl⟩ | ⟨rfl, rfl⟩ | ⟨rfl, rfl⟩ | ⟨rfl, rfl⟩ := h
  all_goals fun_cases Node.share <;> simp [Node.kind, Label.weight]

theorem labelCount_flatten_variableDeclaration (statements : List Node) :
    let nodes := statements.flatMap Node.statementNodes
    labelCount .variableDeclaration (flatten statements) =
      (nodes.map Node.declaratorCount).sum + (nodes.map Node.parameterCount).sum := by
  intro nodes
  have hshare : ∀ n : Node, n.share Label.variableDeclaration.weight =
      n.declaratorCount + n.parameterCount := by
    intro n
    fun_cases Node.share <;> simp [Node.declaratorCount, Node.parameterCount, Label.weight]
  rw [← tally_weight, tally_flatten (by decide), List.map_congr_left fun n _ => hshare n]
  exact List.sum_map_add

theorem labelCount_flatten_update (statements : List Node) :
    let nodes := statements.flatMap Node.statementNodes
    labelCount .update (flatten statements) =
      nodes.countP (fun n => n.kind = .expressionStatement ∧ ¬n.isAssignmentStatement) +
        kindCount .update nodes := by
  intro nodes
  have hshare : ∀ n : Node, n.share Label.update.weight =
      (if n.kind = .expressionStatement ∧ ¬n.isAssignmentStatement then 1 else 0) +
        (if n.kind = .update then 1 else 0) := by
    intro n
    fun_cases Node.share <;> simp [Node.kind, Label.weight, *]
  rw [← tally_weight, tally_flatten (by decide), List.map_congr_left fun n _ => hshare n,
    List.sum_map_add]
  congr 1
  · exact sum_map_eq_countP (fun n => by simp) nodes
  · exact sum_map_eq_countP (fun n => by simp) nodes

theorem labelCount_flatten_assignment (statements : List Node) :
    labelCount .assignment (flatten statements) =
      (statements.flatMap Node.statementNodes).countP Node.isAssignmentStatement := by
  rw [← tally_weight]
  apply tally_flatten_eq_countP (by decide)
  intro n
  cases n with
  | expressionStatement start expression => simp [Node.share, Label.weight]
  | _ => simp [Node.share, Node.isAssignmentStatement, Label.weight]

/-- An `if` statement has an `if` row or, as the branch of another one, an `else if` row. -/
theorem labelCount_flatten_ifStatement (statements : List Node) :
    labelCount .ifStatement (flatten statements) + labelCount .elseIf (flatten statements) =
      kindCount .ifStatement (statements.flatMap Node.statementNodes) := by
  rw [← tally_weight, ← tally_weight, ← tally_add]
  apply tally_flatten_eq_countP (by decide)
  intro n
  fun_cases Node.share <;> simp [Node.kind, Label.weight]

/-- An `else` branch has an `else` row or turns an `if` row into an `else if` row. -/
theorem labelCount_flatten_alternate (statements : List Node) :
    labelCount .elseIf (flatten statements) + labelCount .elseBranch (flatten statements) =
      (statements.flatMap Node.statementNodes).countP Node.hasAlternate := by
  rw [← tally_weight, ← tally_weight, ← tally_add]
  apply tally_flatten_eq_countP (by decide)
  intro n
  cases n with
  | ifStatement start test consequent alternate =>
      cases alternate <;> simp [Node.share, Node.hasAlternate, Label.weight]
  | _ => simp [Node.share, Node.hasAlternate, Label.weight]

/-- The number of rows of each label, up to the choice between `if`, `else if` and `else`, is
determined by the nodes in the place of a statement, and every row comes from one of them. -/
theorem flatten_census (statements : List Node) :
    let rows := flatten statements
    let nodes := statements.flatMap Node.statementNodes
    labelCount .functionDeclaration rows = kindCount .functionDeclaration nodes ∧
    labelCount .variableDeclaration rows =
      (nodes.map Node.declaratorCount).sum + (nodes.map Node.parameterCount).sum ∧
    labelCount .whileStatement rows = kindCount .whileStatement nodes ∧
    labelCount .forStatement rows = kindCount .forStatement nodes ∧
    labelCount .returnStatement rows = kindCount .returnStatement nodes ∧
    labelCount .assignment rows = nodes.countP Node.isAssignmentStatement ∧
    labelCount .update rows =
      nodes.countP (fun n => n.kind = .expressionStatement ∧ ¬n.isAssignmentStatement) +
        kindCount .update nodes ∧
    labelCount .ifStatement rows + labelCount .elseIf rows = kindCount .ifStatement nodes ∧
    labelCount .elseIf rows + labelCount .elseBranch rows = nodes.countP Node.hasAlternate ∧
    ∀ row ∈ rows, ContributedBy nodes row := by
  intro rows nodes
  have hsole : ∀ pair ∈ soleLabels, labelCount pair.1 rows = kindCount pair.2 nodes :=
    fun _ hpair => labelCount_flatten_of_mem_soleLabels hpair statements
  exact
    ⟨hsole (.functionDeclaration, .functionDeclaration) (by decide),
      labelCount_flatten_variableDeclaration statements,
      hsole (.whileStatement, .whileStatement) (by decide),
      hsole (.forStatement, .forStatement) (by decide),
      hsole (.returnStatement, .returnStatement) (by decide),
      labelCount_flatten_assignment statements,
      labelCount_flatten_update statements,
      labelCount_flatten_ifStatement statements,
      labelCount_flatten_alternate statements,
      fun _ hrow => contributedBy_of_mem_flatten hrow⟩

end StatementTable
