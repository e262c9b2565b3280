import StatementTable.Proofs.Slots

/-!
# Rows keep the tokens of a program

The names and literals of a program are its tokens.  When every slot holds a node of a sort that
belongs there, the rows of the program spell out all its tokens in the order of the source text,
and only operators and punctuation stand between them.
-/

namespace StatementTable

/-! ## Sorts of nodes -/

def Kind.expressions : List Kind :=
  [.binary, .unary, .update, .member, .identifier, .literal, .assignment]

def Kind.statements : List Kind :=
  [.expressionStatement, .functionDeclaration, .variableDeclaration, .whileStatement,
    .ifStatement, .returnStatement, .block, .forStatement]

/-- The kinds of nodes that belong in a slot. -/
def Role.kinds : Role → List Kind
  | .expression => .unsupported :: Kind.expressions
  | .forInit => .variableDeclaration :: .unsupported :: Kind.expressions
  | .statement => .update :: .unsupported :: Kind.statements
  | .alternate => .update :: .unsupported :: Kind.statements

/-- Every slot of every node visited holds a node that belongs there. -/
def SlotsFit (visited : List Node) : Prop :=
  ∀ n ∈ visited, ∀ slot ∈ n.slots, slot.2.kind ∈ slot.1.kinds

/-- Statements that belong where they stand, and so do all nodes within them. -/
def WellSorted (statements : List Node) : Prop :=
  (∀ n ∈ statements, n.kind ∈ Role.statement.kinds) ∧ SlotsFit (statements.flatMap Node.walk)

instance (statements : List Node) : Decidable (WellSorted statements) :=
  inferInstanceAs (Decidable (_ ∧ ∀ n ∈ _, ∀ slot ∈ Node.slots n, _))

/-! ## Tokens and gaps -/

namespace Node

/-- The token of a name or a literal. -/
def token? : Node → Option String
  | .identifier _ name => some name
  | .literal _ raw => some raw
  | _ => none

def operator? : Node → Option String
  | .binary _ operator _ _ => some operator
  | .unary _ operator _ => some operator
  | .update _ operator _ _ => some operator
  | .assignment _ operator _ _ => some operator
  | _ => none

end Node

def tokens (visited : List Node) : List String :=
  visited.filterMap Node.token?

def operators (visited : List Node) : List String :=
  visited.filterMap Node.operator?

/-- The characters that may stand between tokens, besides operators. -/
def punctuation : List String :=
  [" ", "(", ")", "[", "]", ";", ",", "="]

/-- A text that is put together from the given operators and punctuation. -/
def IsGap (operators : List String) (text : String) : Prop :=
  ∃ pieces : List String,
    (∀ piece ∈ pieces, piece ∈ operators ∨ piece ∈ punctuation) ∧ text = String.join pieces

/-- A text that consists of the given tokens in order, with gaps before, between and after
them. -/
inductive Spells (operators : List String) : List String → String → Prop where
  | gap {text : String} (hgap : IsGap operators text) : Spells operators [] text
  | token {gap token rest : String} {tokens : List String} (hgap : IsGap operators gap)
      (hrest : Spells operators tokens rest) :
      Spells operators (token :: tokens) (gap ++ token ++ rest)

def Row.text (row : Row) : String :=
  row.name ++ row.condition ++ row.value

/-- The text of rows, one after the other. -/
def rowsText (rows : List Row) : String :=
  String.join (rows.map Row.text)

section Spelling

variable {operators : List String}

theorem IsGap.empty : IsGap operators "" :=
  ⟨[], by simp, by simp⟩

theorem IsGap.of_mem_punctuation
    {piece : String} (hpiece : piece ∈ punctuation) : IsGap operators piece :=
  ⟨[piece], by simp [hpiece], by simp⟩

theorem IsGap.of_mem_operators
    {piece : String} (hpiece : piece ∈ operators) : IsGap operators piece :=
  ⟨[piece], by simp [hpiece], by simp⟩

theorem IsGap.append
    {text₁ text₂ : String} (h₁ : IsGap operators text₁) (h₂ : IsGap operators text₂) :
    IsGap operators (text₁ ++ text₂) := by
  obtain ⟨pieces₁, hpieces₁, rfl⟩ := h₁
  obtain ⟨pieces₂, hpieces₂, rfl⟩ := h₂
  refine ⟨pieces₁ ++ pieces₂, ?_, String.join_append.symm⟩
  intro piece hpiece
  rcases List.mem_append.mp hpiece with hpiece | hpiece
  · exact hpieces₁ piece hpiece
  · exact hpieces₂ piece hpiece

theorem Spells.empty : Spells operators [] "" :=
  Spells.gap IsGap.empty

theorem Spells.single (token : String) : Spells operators [token] token := by
  have h : Spells operators [token] ("" ++ token ++ "") :=
    Spells.token IsGap.empty Spells.empty
  simpa using h

/-- A gap in front of a text becomes part of its first gap. -/
theorem Spells.gap_append
    {gap text : String} {tokens : List String}
    (hgap : IsGap operators gap) (h : Spells operators tokens text) :
    Spells operators tokens (gap ++ text) := by
  cases h with
  | gap htext => exact Spells.gap (hgap.append htext)
  | token hfirst hrest =>
      rw [← String.append_assoc, ← String.append_assoc]
      exact Spells.token (hgap.append hfirst) hrest

theorem Spells.append
    {text₁ text₂ : String} {tokens₁ tokens₂ : List String}
    (h₁ : Spells operators tokens₁ text₁) (h₂ : Spells operators tokens₂ text₂) :
    Spells operators (tokens₁ ++ tokens₂) (text₁ ++ text₂) := by
  induction h₁ with
  | gap hgap => exact h₂.gap_append hgap
  | token hgap _ ih =>
      rw [String.append_assoc]
      exact Spells.token hgap ih

theorem Spells.append_gap
    {gap text : String} {tokens : List String}
    (h : Spells operators tokens text) (hgap : IsGap operators gap) :
    Spells operators tokens (text ++ gap) := by
  simpa using h.append (Spells.gap hgap)

theorem Spells.operandText
    {text : String} {tokens : List String}
    (h : Spells operators tokens text) (wrapped : Bool) :
    Spells operators tokens (operandText wrapped text) := by
  cases wrapped with
  | false => exact h
  | true =>
      have hopen : IsGap operators "(" := IsGap.of_mem_punctuation (by decide)
      have hclose : IsGap operators ")" := IsGap.of_mem_punctuation (by decide)
      exact (h.gap_append hopen).append_gap hclose

theorem Spells.updateText
    {operator text : String} {tokens : List String}
    (h : Spells operators tokens text) (hoperator : operator ∈ operators) (leading : Bool) :
    Spells operators tokens (updateText operator text leading) := by
  have hgap : IsGap operators operator := IsGap.of_mem_operators hoperator
  cases leading with
  | false => exact h.append_gap hgap
  | true => exact h.gap_append hgap

end Spelling

theorem tokens_append (visited₁ visited₂ : List Node) :
    tokens (visited₁ ++ visited₂) = tokens visited₁ ++ tokens visited₂ :=
  List.filterMap_append

/-! ## Expressions -/

namespace Node

variable {visited : List Node}

/-- A child in a slot is visited within its parent and belongs in the slot. -/
theorem visited_and_kind_of_mem_slots
    {n : Node} {role : Role} {c : Node} (hfit : SlotsFit visited)
    (hvisited : n.walk ⊆ visited) (hslot : (role, c) ∈ n.slots) :
    c.walk ⊆ visited ∧ c.kind ∈ role.kinds :=
  ⟨List.Subset.trans (walk_subset_of_mem_children (snd_mem_children hslot)) hvisited,
    hfit n (hvisited n.mem_walk_self) (role, c) hslot⟩

theorem mem_operators_of_walk_subset
    {n : Node} {operator : String} (hvisited : n.walk ⊆ visited)
    (hoperator : n.operator? = some operator) : operator ∈ operators visited :=
  List.mem_filterMap.mpr ⟨n, hvisited n.mem_walk_self, hoperator⟩

/-- The text of an expression spells its tokens. -/
theorem spells_render
    (hfit : SlotsFit visited) (n : Node) (hvisited : n.walk ⊆ visited)
    (hkind : n.kind ∈ Role.expression.kinds) :
    Spells (operators visited) (tokens n.walk) (n.renderWith .skip) := by
  induction n using children_induction with
  | node n ih =>
      have hoperand : ∀ c, (.expression, c) ∈ n.slots →
          Spells (operators visited) (tokens c.walk) (c.renderWith .skip) := by
        intro c hslot
        obtain ⟨hwalk, hsort⟩ := visited_and_kind_of_mem_slots hfit hvisited hslot
        exact ih c (snd_mem_children hslot) hwalk hsort
      cases n with
      | identifier start name => exact Spells.single name
      | literal start raw => exact Spells.single raw
      | unsupported start => exact Spells.empty
      | binary start operator left right =>
          have hspace : IsGap (operators visited) " " := IsGap.of_mem_punctuation (by decide)
          have hgap : IsGap (operators visited) operator :=
            IsGap.of_mem_operators (mem_operators_of_walk_subset hvisited rfl)
          have hleft := (hoperand left (by simp [slots])).operandText left.isBinary
          have hright := (hoperand right (by simp [slots])).operandText right.isBinary
          have hbinary :=
            (((hleft.append_gap hspace).append_gap hgap).append_gap hspace).append hright
          rw [← tokens_append] at hbinary
          exact hbinary
      | unary start operator argument =>
          have hgap : IsGap (operators visited) operator :=
            IsGap.of_mem_operators (mem_operators_of_walk_subset hvisited rfl)
          exact (hoperand argument (by simp [slots])).gap_append hgap
      | update start operator argument leading =>
          exact (hoperand argument (by simp [slots])).updateText
            (mem_operators_of_walk_subset hvisited rfl) leading
      | member start object property =>
          have hopen : IsGap (operators visited) "[" := IsGap.of_mem_punctuation (by decide)
          have hclose : IsGap (operators visited) "]" := IsGap.of_mem_punctuation (by decide)
          have hobject := hoperand object (by simp [slots])
          have hproperty := hoperand property (by simp [slots])
          have hmember := ((hobject.append_gap hopen).append hproperty).append_gap hclose
          rw [← tokens_append] at hmember
          exact hmember
      | assignment start operator left right =>
          have hgap : IsGap (operators visited) operator :=
            IsGap.of_mem_operators (mem_operators_of_walk_subset hvisited rfl)
          have hleft := hoperand left (by simp [slots])
          have hright := hoperand right (by simp [slots])
          have hassignment := (hleft.append_gap hgap).append hright
          rw [← tokens_append] at hassignment
          exact hassignment
      | _ => simp [kind, Role.kinds, Kind.expressions] at hkind

theorem spells_renderOption
    {o : Option Node}
    (h : ∀ c ∈ o.toList, Spells (operators visited) (tokens c.walk) (c.renderWith .skip)) :
    Spells (operators visited) (tokens (o.toList.flatMap walk)) (renderOptionWith .skip o) := by
  cases o with
  | none => exact Spells.empty
  | some c => simpa [renderOptionWith] using h c (by simp)

end Node

/-! ## Rows -/

section Rows

variable {α : Type} {visited : List Node} {items : List α} {nodesOf : α → List Node}

theorem rowsText_append (rows₁ rows₂ : List Row) :
    rowsText (rows₁ ++ rows₂) = rowsText rows₁ ++ rowsText rows₂ := by
  simp [rowsText]

theorem rowsText_single (row : Row) : rowsText [row] = row.text := by
  simp [rowsText]

theorem Spells.rows_flatMap
    {rowsOf : α → List Row}
    (h : ∀ a ∈ items,
      Spells (operators visited) (tokens (nodesOf a)) (rowsText (rowsOf a))) :
    Spells (operators visited) (tokens (items.flatMap nodesOf))
      (rowsText (items.flatMap rowsOf)) := by
  induction items with
  | nil => exact Spells.empty
  | cons a items ih =>
      rw [List.flatMap_cons, List.flatMap_cons, tokens_append, rowsText_append]
      have htail := ih fun b hb => h b (List.mem_cons_of_mem a hb)
      exact (h a List.mem_cons_self).append htail

/-- Texts that are separated by commas spell the tokens of all of them. -/
theorem Spells.intercalate
    {textOf : α → String}
    (h : ∀ a ∈ items, Spells (operators visited) (tokens (nodesOf a)) (textOf a)) :
    Spells (operators visited) (tokens (items.flatMap nodesOf))
      (",".intercalate (items.map textOf)) := by
  induction items with
  | nil => simpa [tokens] using Spells.empty
  | cons a items ih =>
      have hhead := h a List.mem_cons_self
      have htail := ih fun b hb => h b (List.mem_cons_of_mem a hb)
      rw [List.flatMap_cons, tokens_append]
      cases items with
      | nil => simpa [tokens] using hhead
      | cons b items =>
          have hcomma : IsGap (operators visited) "," := IsGap.of_mem_punctuation (by decide)
          rw [List.map_cons, List.map_cons, String.intercalate_cons_cons, ← List.map_cons]
          exact (hhead.append_gap hcomma).append htail

/-- Turning rows into an `else` branch adds no text. -/
theorem rowsText_elseRows (line : UInt64) (rows : List Row) :
    rowsText (elseRows line rows) = rowsText rows := by
  obtain ⟨head, tail, rfl, -, heq⟩ | ⟨-, heq⟩ := elseRows_cases line rows
  · simp [heq, rowsText, Row.text, Row.relabel]
  · simp [heq, rowsText, Row.text]

end Rows

namespace Declarator

variable {visited : List Node} {declarator : Declarator}

theorem spells_row
    (line : UInt64)
    (h : ∀ c ∈ declarator.parts,
      Spells (operators visited) (tokens c.walk) (c.renderWith .skip)) :
    Spells (operators visited) (tokens (declarator.parts.flatMap Node.walk))
      (rowsText [declarator.row .skip line]) := by
  obtain ⟨id, init⟩ := declarator
  have hid := h id List.mem_cons_self
  have hinit := Node.spells_renderOption fun c hc => h c (List.mem_cons_of_mem id hc)
  have hrow := hid.append hinit
  rw [← tokens_append] at hrow
  simpa [parts, row, rowsText, Row.text] using hrow

theorem spells_clause
    (h : ∀ c ∈ declarator.parts,
      Spells (operators visited) (tokens c.walk) (c.renderWith .skip)) :
    Spells (operators visited) (tokens (declarator.parts.flatMap Node.walk))
      (declarator.clause .skip) := by
  obtain ⟨id, init⟩ := declarator
  have hid := h id List.mem_cons_self
  cases init with
  | none => simpa [parts, clause] using hid
  | some init =>
      have hequals : IsGap (operators visited) "=" := IsGap.of_mem_punctuation (by decide)
      have hinit := h init (by simp [parts])
      have hclause := (hid.append_gap hequals).append hinit
      rw [← tokens_append] at hclause
      simpa [parts, clause] using hclause

end Declarator

/-! ## Statements -/

namespace Node

variable {visited : List Node} {n : Node}

/-- The first clause of a `for` statement spells its tokens, also when it is a declaration. -/
theorem spells_initClause
    (hfit : SlotsFit visited) {init : Option Node}
    (hvisited : ∀ c ∈ init.toList, c.walk ⊆ visited)
    (hkind : ∀ c ∈ init.toList, c.kind ∈ Role.forInit.kinds) :
    Spells (operators visited) (tokens (init.toList.flatMap walk)) (initClause .skip init) := by
  cases init with
  | none => exact Spells.empty
  | some c =>
      have hvisited := hvisited c (by simp)
      have hkind := hkind c (by simp)
      by_cases hdeclaration : c.kind = .variableDeclaration
      · cases c with
        | variableDeclaration start declarations =>
            have hparts : ∀ declarator ∈ declarations, ∀ c ∈ declarator.parts,
                Spells (operators visited) (tokens c.walk) (c.renderWith .skip) := by
              intro declarator hdeclarator c hc
              have hslot : (.expression, c) ∈ (variableDeclaration start declarations).slots :=
                List.mem_map_of_mem (List.mem_flatMap_of_mem hdeclarator hc)
              obtain ⟨hwalk, hsort⟩ := visited_and_kind_of_mem_slots hfit hvisited hslot
              exact spells_render hfit c hwalk hsort
            have hclauses := Spells.intercalate fun declarator hdeclarator =>
              Declarator.spells_clause (hparts declarator hdeclarator)
            rw [← List.flatMap_assoc, ← walkDeclarators_eq] at hclauses
            rw [Option.toList_some, List.flatMap_singleton]
            exact hclauses
        | _ => simp [kind] at hdeclaration
      · have hexpression : c.kind ∈ Role.expression.kinds :=
          (List.mem_cons.mp hkind).resolve_left hdeclaration
        rw [initClause_of_kind_ne .skip hdeclaration]
        simpa using spells_render hfit c hvisited hexpression

/-- The row of an expression spells its tokens, also when it leaves out the operator of an
assignment. -/
theorem spells_expressionRow
    (hfit : SlotsFit visited) (line : UInt64) (hvisited : n.walk ⊆ visited)
    (hkind : n.kind ∈ Role.expression.kinds) :
    Spells (operators visited) (tokens n.walk) (rowsText [expressionRow .skip line n]) := by
  have hrender := spells_render hfit n hvisited hkind
  cases n with
  | assignment start operator left right =>
      have hoperand : ∀ c, (.expression, c) ∈ (assignment start operator left right).slots →
          Spells (operators visited) (tokens c.walk) (c.renderWith .skip) := by
        intro c hslot
        obtain ⟨hwalk, hsort⟩ := visited_and_kind_of_mem_slots hfit hvisited hslot
        exact spells_render hfit c hwalk hsort
      have hleft := hoperand left (by simp [slots])
      have hright := hoperand right (by simp [slots])
      have hrow := hleft.append hright
      rw [← tokens_append] at hrow
      simp only [expressionRow, rowsText_single, Row.text, String.append_empty]
      exact hrow
  | _ => simpa [expressionRow, rowsText, Row.text] using hrender

/-- The rows that a statement adds by itself spell the tokens of its operands. -/
theorem spells_ownRows
    (hfit : SlotsFit visited) (hvisited : n.walk ⊆ visited)
    (hkind : n.kind ∈ Role.statement.kinds) :
    Spells (operators visited) (tokens (n.operands.flatMap walk))
      (rowsText (n.ownRowsWith .skip)) := by
  have hslots : ∀ role c, (role, c) ∈ n.slots → c.walk ⊆ visited ∧ c.kind ∈ role.kinds :=
    fun role c hslot => visited_and_kind_of_mem_slots hfit hvisited hslot
  have hoperand : ∀ c, (.expression, c) ∈ n.slots →
      Spells (operators visited) (tokens c.walk) (c.renderWith .skip) := by
    intro c hslot
    obtain ⟨hwalk, hsort⟩ := hslots .expression c hslot
    exact spells_render hfit c hwalk hsort
  cases n with
  | expressionStatement start expression =>
      obtain ⟨hwalk, hsort⟩ := hslots .expression expression (by simp [slots])
      simpa [operands, slots, ownRowsWith] using
        spells_expressionRow hfit start.line hwalk hsort
  | functionDeclaration start id params body =>
      have hid : Spells (operators visited) (tokens (id.toList.flatMap walk))
          (renderOptionWith .skip id) :=
        spells_renderOption fun c hc => hoperand c (by simp [slots, Option.mem_toList.mp hc])
      have hparam : ∀ c ∈ params, Spells (operators visited) (tokens c.walk)
          (rowsText [parameterRow .skip start.line c]) := by
        intro c hc
        simpa [parameterRow, rowsText_single, Row.text] using hoperand c (by simp [slots, hc])
      have hrows := hid.append (Spells.rows_flatMap hparam)
      rw [operands_functionDeclaration, List.flatMap_append, tokens_append]
      simpa [ownRowsWith, rowsText, Row.text, List.map_eq_flatMap] using hrows
  | variableDeclaration start declarations =>
      have hdeclarator : ∀ declarator ∈ declarations,
          Spells (operators visited) (tokens (declarator.parts.flatMap walk))
            (rowsText [declarator.row .skip start.line]) := by
        intro declarator hdeclarator
        refine declarator.spells_row start.line fun c hc => hoperand c ?_
        exact List.mem_map_of_mem (List.mem_flatMap_of_mem hdeclarator hc)
      have hrows := Spells.rows_flatMap hdeclarator
      rw [operands_variableDeclaration, List.flatMap_assoc, ownRowsWith, List.map_eq_flatMap]
      exact hrows
  | whileStatement start test body =>
      have htest := hoperand test (by simp [slots])
      simpa [operands, slots, ownRowsWith, rowsText_single, Row.text] using htest
  | ifStatement start test consequent alternate =>
      have htest := hoperand test (by simp [slots])
      simpa [ownRowsWith, rowsText_single, Row.text] using htest
  | returnStatement start argument =>
      have hargument : Spells (operators visited) (tokens (argument.toList.flatMap walk))
          (renderOptionWith .skip argument) :=
        spells_renderOption fun c hc => hoperand c (by simp [slots, Option.mem_toList.mp hc])
      simpa [ownRowsWith, rowsText_single, Row.text] using hargument
  | forStatement start init test step body =>
      have hsemicolon : IsGap (operators visited) ";" := IsGap.of_mem_punctuation (by decide)
      have hinit : Spells (operators visited) (tokens (init.toList.flatMap walk))
          (initClause .skip init) :=
        spells_initClause hfit
          (fun c hc => (hslots .forInit c (by simp [slots, Option.mem_toList.mp hc])).1)
          (fun c hc => (hslots .forInit c (by simp [slots, Option.mem_toList.mp hc])).2)
      have htest : Spells (operators visited) (tokens (test.toList.flatMap walk))
          (renderOptionWith .skip test) :=
        spells_renderOption fun c hc => hoperand c (by simp [slots, Option.mem_toList.mp hc])
      have hstep : Spells (operators visited) (tokens (step.toList.flatMap walk))
          (renderOptionWith .skip step) :=
        spells_renderOption fun c hc => hoperand c (by simp [slots, Option.mem_toList.mp hc])
      have hcondition :=
        (((hinit.append_gap hsemicolon).append htest).append_gap hsemicolon).append hstep
      rw [operands_forStatement, List.flatMap_append, List.flatMap_append, tokens_append,
        tokens_append]
      simpa [ownRowsWith, rowsText_single, Row.text, forCondition] using hcondition
  | update start operator argument leading =>
      have hargument := hoperand argument (by simp [slots])
      have hupdate := hargument.updateText (mem_operators_of_walk_subset hvisited rfl) leading
      simpa [operands, slots, ownRowsWith, rowsText, Row.text] using hupdate
  | block start body =>
      rw [operands_block]
      exact Spells.empty
  | unsupported start => exact Spells.empty
  | _ => simp [kind, Role.kinds, Kind.statements] at hkind

theorem token?_eq_none_of_mem_statement_kinds
    (hkind : n.kind ∈ Role.statement.kinds) : n.token? = none := by
  cases n with
  | identifier | literal => simp [kind, Role.kinds, Kind.statements] at hkind
  | _ => rfl

/-- A statement has no token of its own. -/
theorem tokens_walk
    (hkind : n.kind ∈ Role.statement.kinds) :
    tokens n.walk =
      tokens (n.operands.flatMap walk) ++ tokens ((n.inRole .statement).flatMap walk) ++
        tokens ((n.inRole .alternate).flatMap walk) := by
  have hnone : tokens [n] = [] := by
    simp [tokens, token?_eq_none_of_mem_statement_kinds hkind]
  rw [walk_eq_append, tokens_append, tokens_append, ← List.singleton_append, tokens_append,
    hnone, List.nil_append]

/-- The rows of a statement spell its tokens. -/
theorem spells_rows
    (hfit : SlotsFit visited) (n : Node) (hvisited : n.walk ⊆ visited)
    (hkind : n.kind ∈ Role.statement.kinds) :
    Spells (operators visited) (tokens n.walk) (rowsText (n.rowsWith .skip)) := by
  induction n using children_induction with
  | node n ih =>
      have hrows : ∀ role, role.kinds = Role.statement.kinds → ∀ c ∈ n.inRole role,
          Spells (operators visited) (tokens c.walk) (rowsText (c.rowsWith .skip)) := by
        intro role hrole c hc
        obtain ⟨hwalk, hsort⟩ :=
          visited_and_kind_of_mem_slots hfit hvisited (mem_slots_of_mem_inRole hc)
        exact ih c (mem_children_of_mem_inRole hc) hwalk (hrole ▸ hsort)
      have hown := spells_ownRows hfit hvisited hkind
      have hstatement := Spells.rows_flatMap (hrows .statement rfl)
      have helse : ∀ c ∈ n.inRole .alternate,
          Spells (operators visited) (tokens c.walk) (rowsText (c.elseRowsWith .skip)) := by
        intro c hc
        rw [elseRowsWith, rowsText_elseRows]
        exact hrows .alternate rfl c hc
      have halternate := Spells.rows_flatMap helse
      rw [tokens_walk hkind, rowsWith_eq, rowsText_append, rowsText_append]
      exact (hown.append hstatement).append halternate

end Node

/-- The rows of a well-sorted program spell out its tokens: none is lost, none is moved, and all
that is added are operators of the program and punctuation. -/
theorem flatten_spells_tokens
    (statements : List Node) (hsorted : WellSorted statements) :
    let visited := statements.flatMap Node.walk
    Spells (operators visited) (tokens visited) (rowsText (flatten statements)) := by
  intro visited
  have hrows : ∀ n ∈ statements,
      Spells (operators visited) (tokens n.walk) (rowsText (n.rowsWith .skip)) := by
    intro n hn
    have hvisited : n.walk ⊆ visited := fun m hm => List.mem_flatMap_of_mem hn hm
    exact n.spells_rows hsorted.2 hvisited (hsorted.1 n hn)
  rw [flatten, flattenWith_eq]
  exact Spells.rows_flatMap hrows

/-- The statement `for (let i = 0, j; i < n; i++) s = s + i`, with a declaration in its first
clause. -/
def countingLoop : Node :=
  .forStatement ⟨1, 0⟩
    (some (.variableDeclaration ⟨1, 5⟩
      [.mk (.identifier ⟨1, 9⟩ "i") (some (.literal ⟨1, 13⟩ "0")),
        .mk (.identifier ⟨1, 16⟩ "j") none]))
    (some (.binary ⟨1, 19⟩ "<" (.identifier ⟨1, 19⟩ "i") (.identifier ⟨1, 23⟩ "n")))
    (some (.update ⟨1, 26⟩ "++" (.identifier ⟨1, 26⟩ "i") false))
    (.expressionStatement ⟨2, 2⟩
      (.assignment ⟨2, 2⟩ "=" (.identifier ⟨2, 2⟩ "s")
        (.binary ⟨2, 6⟩ "+" (.identifier ⟨2, 6⟩ "s") (.identifier ⟨2, 10⟩ "i"))))

theorem flatten_spells_tokens_countingLoop :
    WellSorted [countingLoop] ∧
      Spells ["<", "++", "=", "+"] ["i", "0", "j", "i", "n", "i", "s", "s", "i"]
        (rowsText (flatten [countingLoop])) := by
  have hsorted : WellSorted [countingLoop] := by decide
  exact ⟨hsorted, flatten_spells_tokens [countingLoop] hsorted⟩

end StatementTable
