import StatementTable.Proofs.Census

/-!
# Which texts a row has

The label of a row says which of its name, condition and value may be there.  Rows of one label
have several origins: variables are declared by declarators and by parameters, updates are
statements or stand in their place, and an `else if` row is an `if` row that has been relabelled.
All origins keep to the same rule, whatever the tree looks like.
-/

namespace StatementTable

namespace Row

/-- The texts of a row are those that its label allows. -/
def Conforms (row : Row) : Prop :=
  match row.label with
  | .elseBranch => row.name = "" ∧ row.condition = "" ∧ row.value = ""
  | .ifStatement | .elseIf | .whileStatement => row.name = "" ∧ row.value = ""
  | .forStatement => row.name = "" ∧ row.value = "" ∧ 2 ≤ row.condition.toList.count ';'
  | .functionDeclaration => row.condition = "" ∧ row.value = ""
  | .variableDeclaration | .assignment => row.condition = ""
  | .returnStatement => row.name = "" ∧ row.condition = ""
  | .update => row.condition = "" ∧ (row.name = "" ∨ row.value = "")

/-- An `else if` row may have the texts of an `if` row. -/
theorem Conforms.relabel_elseIf
    {row : Row} (h : row.Conforms) (hlabel : row.label = .ifStatement) :
    (row.relabel .elseIf).Conforms := by
  unfold Conforms at h
  rw [hlabel] at h
  exact h

end Row

namespace Node

/-- Two semicolons set the clauses apart.  Texts within the clauses may add further ones. -/
theorem two_le_count_forCondition (fallback : Fallback) (init test step : Option Node) :
    2 ≤ (forCondition fallback init test step).toList.count ';' := by
  have hmark : (";" : String).toList.count ';' = 1 := by decide
  simp only [forCondition, String.toList_append, List.count_append, hmark]
  omega

theorem conforms_expressionRow (fallback : Fallback) (line : UInt64) (expression : Node) :
    (expressionRow fallback line expression).Conforms := by
  cases expression with
  | assignment => rfl
  | _ => exact ⟨rfl, Or.inl rfl⟩

/-- The rows that a node adds by itself have the texts that their labels allow. -/
theorem conforms_of_mem_ownRows
    {n : Node} {row : Row} (hrow : row ∈ n.ownRowsWith .skip) : row.Conforms := by
  cases n with
  | expressionStatement start expression =>
      obtain rfl := List.mem_singleton.mp hrow
      exact conforms_expressionRow .skip start.line expression
  | functionDeclaration start id params body =>
      rcases List.mem_cons.mp hrow with rfl | hrow
      · exact ⟨rfl, rfl⟩
      · obtain ⟨parameter, -, rfl⟩ := List.mem_map.mp hrow
        exact rfl
  | variableDeclaration start declarations =>
      obtain ⟨⟨id, init⟩, -, rfl⟩ := List.mem_map.mp hrow
      exact rfl
  | whileStatement | ifStatement | returnStatement =>
      obtain rfl := List.mem_singleton.mp hrow
      exact ⟨rfl, rfl⟩
  | forStatement start init test step body =>
      obtain rfl := List.mem_singleton.mp hrow
      exact ⟨rfl, rfl, two_le_count_forCondition .skip init test step⟩
  | update =>
      obtain rfl := List.mem_singleton.mp hrow
      exact ⟨rfl, Or.inr rfl⟩
  | block | binary | unary | member | identifier | literal | assignment | unsupported =>
      exact absurd hrow List.not_mem_nil

end Node

/-- Every row has the texts that its label allows. -/
theorem flatten_rows_conform (statements : List Node) :
    ∀ row ∈ flatten statements, row.Conforms := by
  intro row hrow
  obtain ⟨n, -, hown | ⟨own, hown, hlabel, rfl⟩ | ⟨rfl, -⟩⟩ := contributedBy_of_mem_flatten hrow
  · exact Node.conforms_of_mem_ownRows hown
  · exact (Node.conforms_of_mem_ownRows hown).relabel_elseIf hlabel
  · exact ⟨rfl, rfl, rfl⟩

/-- The loop `for (s = ';'; ; s++) {}` as the `else` branch of an `if` statement. -/
def loopInElse : List Node :=
  [.ifStatement ⟨1, 0⟩ (.identifier ⟨1, 4⟩ "a") (.block ⟨1, 7⟩ [])
    (some (.forStatement ⟨2, 5⟩
      (some (.assignment ⟨2, 10⟩ "=" (.identifier ⟨2, 10⟩ "s") (.literal ⟨2, 14⟩ "';'"))) none
      (some (.update ⟨2, 21⟩ "++" (.identifier ⟨2, 21⟩ "s") false)) (.block ⟨2, 26⟩ [])))]

/-- The literal adds a third semicolon to the condition of the loop. -/
theorem flatten_rows_conform_loopInElse :
    let row : Row := { line := 2, label := .forStatement, condition := "s=';';;s++" }
    row ∈ flatten loopInElse ∧ row.Conforms ∧ row.condition.toList.count ';' = 3 := by
  intro row
  have hrow : row ∈ flatten loopInElse := by decide
  exact ⟨hrow, flatten_rows_conform loopInElse row hrow, by decide⟩

end StatementTable
