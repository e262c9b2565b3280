import StatementTable.Proofs.Addresses

/-!
# Strict flattening

A strict flattening fails exactly when there is an unsupported node, and it names the line of the
first one.  When it succeeds, what unsupported nodes amount to plays no part: the rows are the
same for every fallback.
-/

namespace StatementTable

namespace Node

/-- No node within a node is unsupported. -/
def Supported (n : Node) : Prop :=
  ∀ m ∈ n.walk, m.isUnsupported = false

theorem Supported.of_mem_children
    {c n : Node} (h : n.Supported) (hc : c ∈ n.children) : c.Supported :=
  fun m hm => h m (walk_subset_of_mem_children hc hm)

/-! ## Rows without the fallback -/

section Fallback

variable (fallback₁ fallback₂ : Fallback)

/-- The text of a supported node does not depend on the fallback. -/
theorem renderWith_eq_of_supported {n : Node} (h : n.Supported) :
    n.renderWith fallback₁ = n.renderWith fallback₂ := by
  induction n using children_induction with
  | node n ih =>
      have hchild : ∀ c ∈ n.children, c.renderWith fallback₁ = c.renderWith fallback₂ :=
        fun c hc => ih c hc (h.of_mem_children hc)
      cases n with
      | unsupported start => exact absurd (h _ (mem_walk_self _)) (by simp [isUnsupported, kind])
      | binary | unary | update | member | assignment =>
          simp [children, slots] at hchild
          simp [renderWith, hchild]
      | _ => simp [renderWith]

theorem renderOptionWith_eq_of_supported
    {o : Option Node} (h : ∀ c ∈ o.toList, c.Supported) :
    renderOptionWith fallback₁ o = renderOptionWith fallback₂ o := by
  cases o with
  | none => rfl
  | some c => exact renderWith_eq_of_supported fallback₁ fallback₂ (h c (by simp))

theorem expressionRow_eq_of_supported {n : Node} (h : n.Supported) (line : UInt64) :
    expressionRow fallback₁ line n = expressionRow fallback₂ line n := by
  have hrender := renderWith_eq_of_supported fallback₁ fallback₂ h
  cases n with
  | assignment start operator left right =>
      have hleft := renderWith_eq_of_supported fallback₁ fallback₂
        (h.of_mem_children (c := left) (by simp [children, slots]))
      have hright := renderWith_eq_of_supported fallback₁ fallback₂
        (h.of_mem_children (c := right) (by simp [children, slots]))
      simp [expressionRow, hleft, hright]
  | _ => simp [expressionRow, hrender]

theorem declaratorRow_eq_of_supported
    {declarator : Declarator} (h : ∀ c ∈ declarator.parts, c.Supported) (line : UInt64) :
    declarator.row fallback₁ line = declarator.row fallback₂ line := by
  obtain ⟨id, init⟩ := declarator
  have hid := renderWith_eq_of_supported fallback₁ fallback₂ (h id List.mem_cons_self)
  have hinit := renderOptionWith_eq_of_supported fallback₁ fallback₂
    fun c hc => h c (List.mem_cons_of_mem id hc)
  simp [Declarator.row, hid, hinit]

theorem declaratorClause_eq_of_supported
    {declarator : Declarator} (h : ∀ c ∈ declarator.parts, c.Supported) :
    declarator.clause fallback₁ = declarator.clause fallback₂ := by
  obtain ⟨id, init⟩ := declarator
  have hid := renderWith_eq_of_supported fallback₁ fallback₂ (h id List.mem_cons_self)
  cases init with
  | none => simp [Declarator.clause, hid]
  | some init =>
      have hinit := renderWith_eq_of_supported fallback₁ fallback₂
        (h init (by simp [Declarator.parts]))
      simp [Declarator.clause, hid, hinit]

theorem initClause_eq_of_supported
    {init : Option Node} (h : ∀ c ∈ init.toList, c.Supported) :
    initClause fallback₁ init = initClause fallback₂ init := by
  cases init with
  | none => rfl
  | some c =>
      have hsupported := h c (by simp)
      by_cases hkind : c.kind = .variableDeclaration
      · cases c with
        | variableDeclaration start declarations =>
            have hclauses : declarations.map (Declarator.clause fallback₁) =
                declarations.map (Declarator.clause fallback₂) := by
              apply List.map_congr_left
              intro declarator hdeclarator
              apply declaratorClause_eq_of_supported
              intro c hc
              apply hsupported.of_mem_children
              simpa [children, slots] using ⟨declarator, hdeclarator, hc⟩
            simp [initClause, hclauses]
        | _ => simp [kind] at hkind
      · rw [initClause_of_kind_ne fallback₁ hkind, initClause_of_kind_ne fallback₂ hkind]
        exact renderWith_eq_of_supported fallback₁ fallback₂ hsupported

/-- The rows that a supported node adds by itself do not depend on the fallback. -/
theorem ownRowsWith_eq_of_supported {n : Node} (h : n.Supported) :
    n.ownRowsWith fallback₁ = n.ownRowsWith fallback₂ := by
  have hsupported : ∀ c ∈ n.children, c.Supported := fun c hc => h.of_mem_children hc
  have hrender : ∀ c ∈ n.children, c.renderWith fallback₁ = c.renderWith fallback₂ :=
    fun c hc => renderWith_eq_of_supported fallback₁ fallback₂ (hsupported c hc)
  cases n with
  | unsupported start => exact absurd (h _ (mem_walk_self _)) (by simp [isUnsupported, kind])
  | expressionStatement start expression =>
      have hrow := expressionRow_eq_of_supported fallback₁ fallback₂
        (hsupported expression (by simp [children, slots])) start.line
      simp [ownRowsWith, hrow]
  | functionDeclaration start id params body =>
      have hid := renderOptionWith_eq_of_supported fallback₁ fallback₂ (o := id)
        fun c hc => hsupported c (by simp [children, slots, Option.mem_toList.mp hc])
      have hparams : params.map (parameterRow fallback₁ start.line) =
          params.map (parameterRow fallback₂ start.line) := by
        apply List.map_congr_left
        intro c hc
        simp [parameterRow, hrender c (by simp [children, slots, hc])]
      simp [ownRowsWith, hid, hparams]
  | variableDeclaration start declarations =>
      apply List.map_congr_left
      intro declarator hdeclarator
      apply declaratorRow_eq_of_supported
      intro c hc
      apply hsupported
      simpa [children, slots] using ⟨declarator, hdeclarator, hc⟩
  | returnStatement start argument =>
      have hargument := renderOptionWith_eq_of_supported fallback₁ fallback₂ (o := argument)
        fun c hc => hsupported c (by simp [children, slots, Option.mem_toList.mp hc])
      simp [ownRowsWith, hargument]
  | forStatement start init test step body =>
      have hinit : initClause fallback₁ init = initClause fallback₂ init :=
        initClause_eq_of_supported fallback₁ fallback₂
          fun c hc => hsupported c (by simp [children, slots, Option.mem_toList.mp hc])
      have htest := renderOptionWith_eq_of_supported fallback₁ fallback₂ (o := test)
        fun c hc => hsupported c (by simp [children, slots, Option.mem_toList.mp hc])
      have hstep := renderOptionWith_eq_of_supported fallback₁ fallback₂ (o := step)
        fun c hc => hsupported c (by simp [children, slots, Option.mem_toList.mp hc])
      simp [ownRowsWith, forCondition, hinit, htest, hstep]
  | whileStatement start test body =>
      simp [ownRowsWith, hrender test (by simp [children, slots])]
  | ifStatement start test consequent alternate =>
      simp [ownRowsWith, hrender test (by simp [children, slots])]
  | update start operator argument leading =>
      simp [ownRowsWith, hrender argument (by simp [children, slots])]
  | _ => rfl

/-- The rows of a supported node do not depend on the fallback. -/
theorem rowsWith_eq_of_supported {n : Node} (h : n.Supported) :
    n.rowsWith fallback₁ = n.rowsWith fallback₂ := by
  induction n using children_induction with
  | node n ih =>
      have hrows : ∀ role, ∀ c ∈ n.inRole role, c.rowsWith fallback₁ = c.rowsWith fallback₂ := by
        intro role c hc
        have hchild := mem_children_of_mem_inRole hc
        exact ih c hchild (h.of_mem_children hchild)
      have hstatement := List.flatMap_congr (hrows .statement)
      have halternate : (n.inRole .alternate).flatMap (elseRowsWith fallback₁) =
          (n.inRole .alternate).flatMap (elseRowsWith fallback₂) := by
        apply List.flatMap_congr
        intro c hc
        rw [elseRowsWith, elseRowsWith, hrows .alternate c hc]
      rw [rowsWith_eq, rowsWith_eq, ownRowsWith_eq_of_supported fallback₁ fallback₂ h,
        hstatement, halternate]

end Fallback

end Node

/-! ## When strict flattening fails -/

/-- Strict flattening looks for the first unsupported node of the walk. -/
theorem flatten_strict_eq (statements : List Node) :
    FlattenOptions.flatten { strict := true } statements =
      match (statements.flatMap Node.walk).find? Node.isUnsupported with
      | some n => .error n.line
      | none => .ok (flatten statements) := by
  rw [← List.head?_filter, ← Node.walkList_eq]
  unfold FlattenOptions.flatten unsupportedLines
  cases (Node.walkList statements).filter Node.isUnsupported with
  | nil => rfl
  | cons n rest => rfl

theorem flatten_strict_eq_ok_iff (statements : List Node) (rows : List Row) :
    FlattenOptions.flatten { strict := true } statements = .ok rows ↔
      (∀ n ∈ statements.flatMap Node.walk, n.isUnsupported = false) ∧
        rows = flatten statements := by
  rw [flatten_strict_eq]
  cases hfind : (statements.flatMap Node.walk).find? Node.isUnsupported with
  | none =>
      have hnone : ∀ n ∈ statements.flatMap Node.walk, n.isUnsupported = false :=
        fun n hn => Bool.eq_false_iff.mpr (List.find?_eq_none.mp hfind n hn)
      constructor
      · intro h
        exact ⟨hnone, (Except.ok.inj h).symm⟩
      · rintro ⟨-, rfl⟩
        rfl
  | some n =>
      have hn : n.isUnsupported = true := List.find?_some hfind
      constructor
      · intro h
        cases h
      · rintro ⟨hall, -⟩
        rw [hall n (List.mem_of_find?_eq_some hfind)] at hn
        cases hn

theorem flatten_strict_eq_error_iff (statements : List Node) (line : UInt64) :
    FlattenOptions.flatten { strict := true } statements = .error line ↔
      ∃ n, (statements.flatMap Node.walk).find? Node.isUnsupported = some n ∧
        n.line = line := by
  rw [flatten_strict_eq]
  cases (statements.flatMap Node.walk).find? Node.isUnsupported with
  | none => simp
  | some n => simp

/-- Without unsupported nodes all fallbacks give the same rows. -/
theorem flattenWith_eq_of_forall_supported
    {statements : List Node}
    (h : ∀ n ∈ statements.flatMap Node.walk, n.isUnsupported = false)
    (fallback₁ fallback₂ : Fallback) :
    flattenWith fallback₁ statements = flattenWith fallback₂ statements := by
  rw [flattenWith_eq, flattenWith_eq]
  apply List.flatMap_congr
  intro n hn
  exact Node.rowsWith_eq_of_supported fallback₁ fallback₂
    fun m hm => h m (List.mem_flatMap_of_mem hn hm)

/-- Strict flattening succeeds exactly when no node at any address is unsupported.  When it fails,
it names the line of the unsupported node with the least address.  When it succeeds, it gives the
rows of a lenient flattening, and these are the same whatever unsupported nodes amount to. -/
theorem strict_flatten_sound_and_complete (statements : List Node) :
    let strict : FlattenOptions := { strict := true }
    let lenient : FlattenOptions := { strict := false }
    ((∃ rows, strict.flatten statements = .ok rows) ↔
      ∀ address n, nodeAt? statements address = some n → n.isUnsupported = false) ∧
    (∀ line, strict.flatten statements = .error line →
      ∃ address n, nodeAt? statements address = some n ∧ n.isUnsupported = true ∧
        n.line = line ∧
        ∀ earlier < address, ∀ m, nodeAt? statements earlier = some m →
          m.isUnsupported = false) ∧
    (∀ rows, strict.flatten statements = .ok rows →
      lenient.flatten statements = .ok rows ∧
        ∀ fallback, flattenWith fallback statements = rows) := by
  intro strict lenient
  obtain ⟨addresses, henumerates⟩ :=
    exists_enumerates_flatMap fun n (_ : n ∈ statements) => n.exists_enumerates_walk
  refine ⟨?_, ?_, ?_⟩
  · simp only [strict, flatten_strict_eq_ok_iff, exists_and_left, exists_eq, and_true,
      henumerates.mem_visited_iff, forall_exists_index]
    exact forall_comm
  · intro line hline
    obtain ⟨n, hfind, rfl⟩ := (flatten_strict_eq_error_iff statements line).mp hline
    obtain ⟨address, haddress, hleast⟩ := henumerates.exists_least_of_find? hfind
    exact ⟨address, n, haddress, List.find?_some hfind, rfl, hleast⟩
  · intro rows hrows
    obtain ⟨hsupported, rfl⟩ := (flatten_strict_eq_ok_iff statements rows).mp hrows
    exact ⟨rfl, fun fallback => flattenWith_eq_of_forall_supported hsupported fallback .skip⟩

end StatementTable
