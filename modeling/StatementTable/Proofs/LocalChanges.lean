import StatementTable.Proofs.OpenSlots

/-!
# Changes that stay local

An expression is read as text, and the text of an expression stands in one cell of one row.  So
another node in the slot of an expression changes one row at most, however deep the slot is.  The
frames around the slot pass the change on: a frame whose own slot is for an expression puts it
into one of its texts, and a frame whose slot is for a statement takes over the rows.  An `else`
branch looks at the label of the first row, which a change keeps.
-/

namespace StatementTable

namespace Row

/-- The second row is the first with another name, another condition or another value. -/
inductive OneTextApart : Row → Row → Prop
  | name (row : Row) (text : String) : OneTextApart row { row with name := text }
  | condition (row : Row) (text : String) : OneTextApart row { row with condition := text }
  | value (row : Row) (text : String) : OneTextApart row { row with value := text }

/-- The rows are on the same line and begin an `if` statement both or neither. -/
structure AlikeAsHeads (row row' : Row) : Prop where
  line_eq : row'.line = row.line
  ifStatement_iff : row'.label = .ifStatement ↔ row.label = .ifStatement

/-- A relation between a row and what may become of it that comprises a change of one text and
that no `else` branch can tell apart. -/
structure Tolerated (R : Row → Row → Prop) : Prop where
  of_oneTextApart : ∀ {row row'}, OneTextApart row row' → R row row'
  alikeAsHeads : ∀ {row row'}, R row row' → AlikeAsHeads row row'
  relabel : ∀ {row row'}, R row row' → ∀ label, R (row.relabel label) (row'.relabel label)

theorem tolerated_oneTextApart : Tolerated OneTextApart where
  of_oneTextApart := id
  alikeAsHeads := by
    rintro row _ (text | text | text)
    · exact ⟨rfl, Iff.rfl⟩
    · exact ⟨rfl, Iff.rfl⟩
    · exact ⟨rfl, Iff.rfl⟩
  relabel := by
    rintro row _ (text | text | text) label
    · exact .name (row.relabel label) text
    · exact .condition (row.relabel label) text
    · exact .value (row.relabel label) text

theorem tolerated_alikeAsHeads : Tolerated AlikeAsHeads where
  of_oneTextApart := tolerated_oneTextApart.alikeAsHeads
  alikeAsHeads := id
  relabel := fun h _ => ⟨h.line_eq, Iff.rfl⟩

end Row

/-- The second list of rows is the first with one row at most replaced by a related one. -/
inductive ChangedOnce (R : Row → Row → Prop) : List Row → List Row → Prop
  | same (rows : List Row) : ChangedOnce R rows rows
  | change (before after : List Row) {row row' : Row} (h : R row row') :
      ChangedOnce R (before ++ row :: after) (before ++ row' :: after)

namespace ChangedOnce

variable {R S : Row → Row → Prop} {rows rows' : List Row}

theorem head {row row' : Row} (h : R row row') (after : List Row) :
    ChangedOnce R (row :: after) (row' :: after) :=
  .change [] after h

theorem append_left (h : ChangedOnce R rows rows') (front : List Row) :
    ChangedOnce R (front ++ rows) (front ++ rows') := by
  cases h with
  | same => exact .same _
  | change before after h =>
      rw [← List.append_assoc, ← List.append_assoc]
      exact .change (front ++ before) after h

theorem append_right (h : ChangedOnce R rows rows') (back : List Row) :
    ChangedOnce R (rows ++ back) (rows' ++ back) := by
  cases h with
  | same => exact .same _
  | change before after h =>
      rw [List.append_assoc, List.append_assoc]
      exact .change before (after ++ back) h

theorem mono (hRS : ∀ {row row'}, R row row' → S row row') (h : ChangedOnce R rows rows') :
    ChangedOnce S rows rows' := by
  cases h with
  | same => exact .same _
  | change before after h => exact .change before after (hRS h)

theorem map_line_eq (hR : Row.Tolerated R) (h : ChangedOnce R rows rows') :
    rows'.map Row.line = rows.map Row.line := by
  cases h with
  | same => rfl
  | change before after h => simp [(hR.alikeAsHeads h).line_eq]

/-- An `else` branch passes a change on, since it takes the same way before and after it. -/
theorem elseRows (hR : Row.Tolerated R) (h : ChangedOnce R rows rows') (line : UInt64) :
    ChangedOnce R (elseRows line rows) (elseRows line rows') := by
  cases h with
  | same => exact .same _
  | @change before after row row' h =>
      cases before with
      | nil =>
          by_cases hlabel : row.label = .ifStatement
          · have hlabel' := (hR.alikeAsHeads h).ifStatement_iff.mpr hlabel
            simp only [List.nil_append, StatementTable.elseRows, if_pos hlabel, if_pos hlabel']
            exact .head (hR.relabel h .elseIf) after
          · have hlabel' := mt (hR.alikeAsHeads h).ifStatement_iff.mp hlabel
            simp only [List.nil_append, StatementTable.elseRows, if_neg hlabel, if_neg hlabel']
            exact .change [_] after h
      | cons first before =>
          by_cases hlabel : first.label = .ifStatement
          · simp only [List.cons_append, StatementTable.elseRows, if_pos hlabel]
            exact .change (first.relabel .elseIf :: before) after h
          · simp only [List.cons_append, StatementTable.elseRows, if_neg hlabel]
            exact .change (_ :: first :: before) after h

end ChangedOnce

namespace Node

/-- What a frame sees of two nodes differs in one row at most, and no more than `R` allows. -/
structure Apart (R : Row → Row → Prop) (n m : Node) : Prop where
  line_eq : m.line = n.line
  rows : ChangedOnce R (n.rowsWith .skip) (m.rowsWith .skip)
  statement : ∀ line, R (expressionRow .skip line n) (expressionRow .skip line m)

namespace Frame

variable (frame : Frame) (n m : Node)

theorem expressionRow_fill_apart (line : UInt64) :
    Row.OneTextApart (expressionRow .skip line (frame.fill n))
      (expressionRow .skip line (frame.fill m)) := by
  cases frame with
  | assignmentTarget start operator right => exact .name _ _
  | _ => exact .value _ _

/-- Other than in an expression that is a statement, an operand is part of one text. -/
theorem rows_fill_apart
    (hrole : frame.role = .expression ∨ frame.role = .forInit)
    (hkind : (frame.fill n).kind ≠ .expressionStatement) :
    ChangedOnce Row.OneTextApart ((frame.fill n).rowsWith .skip)
      ((frame.fill m).rowsWith .skip) := by
  cases frame with
  | functionBody | whileBody | consequent | alternate | blockItem | forBody => simp [role] at hrole
  | expressionStatement => exact absurd rfl hkind
  | functionId start params body =>
      simp only [fill, rowsWith]
      exact (ChangedOnce.head (.name _ _) _).append_right _
  | parameter start id before after body =>
      simp only [fill, rowsWith, List.map_append, List.map_cons]
      exact (ChangedOnce.change (_ :: before.map _) _ (.name _ _)).append_right _
  | declaredName start before init after =>
      simp only [fill, rowsWith, List.map_append, List.map_cons]
      exact .change _ _ (.name _ _)
  | initialValue start before id after =>
      simp only [fill, rowsWith, List.map_append, List.map_cons]
      exact .change _ _ (.value _ _)
  | whileTest start body =>
      simp only [fill, rowsWith]
      exact .head (.condition _ _) _
  | ifTest start consequent alternate =>
      simp only [fill, rowsWith]
      exact (ChangedOnce.head (.condition _ _) _).append_right _
  | returnArgument start =>
      simp only [fill, rowsWith]
      exact .head (.value _ _) _
  | updateOperand start operator leading =>
      simp only [fill, rowsWith]
      exact .head (.name _ _) _
  | forInit | forTest | forStep =>
      simp only [fill, rowsWith]
      exact .head (.condition _ _) _
  | leftOperand | rightOperand | unaryOperand | memberObject | memberProperty | assignmentTarget
  | assignedValue =>
      simp only [fill, rowsWith]
      exact .same _

/-- Other than in an expression that is a statement, any two operands give nodes that differ in
one text. -/
theorem apart_fill_of_operand
    (hrole : frame.role = .expression ∨ frame.role = .forInit)
    (hkind : (frame.fill n).kind ≠ .expressionStatement) :
    Apart Row.OneTextApart (frame.fill n) (frame.fill m) where
  line_eq := congrArg Position.line frame.start_fill
  rows := frame.rows_fill_apart n m hrole hkind
  statement := frame.expressionRow_fill_apart n m

variable {n m} {R : Row → Row → Prop}

theorem rows_fill_of_apart (hR : Row.Tolerated R) (h : Apart R n m) :
    ChangedOnce R ((frame.fill n).rowsWith .skip) ((frame.fill m).rowsWith .skip) := by
  have hoperand := fun hrole hkind =>
    (frame.rows_fill_apart n m hrole hkind).mono hR.of_oneTextApart
  cases frame with
  | expressionStatement start =>
      simp only [fill, rowsWith]
      exact .head (h.statement start.line) []
  | functionBody start id params =>
      simp only [fill, rowsWith]
      exact h.rows.append_left _
  | whileBody | forBody =>
      simp only [fill, rowsWith]
      exact h.rows.append_left [_]
  | consequent start test alternate =>
      simp only [fill, rowsWith]
      exact (h.rows.append_left [_]).append_right _
  | alternate start test consequent =>
      simp only [fill, rowsWith, alternateRowsWith, h.line_eq]
      exact (h.rows.elseRows hR n.line).append_left _
  | blockItem start before after =>
      simp only [fill, rowsWith, listRowsWith_eq, List.flatMap_append, List.flatMap_cons]
      exact (h.rows.append_right _).append_left _
  | forInit => exact hoperand (Or.inr rfl) Kind.noConfusion
  | _ => exact hoperand (Or.inl rfl) Kind.noConfusion

/-- A frame passes on what differs between two nodes. -/
theorem apart_fill (hR : Row.Tolerated R) (h : Apart R n m) :
    Apart R (frame.fill n) (frame.fill m) where
  line_eq := congrArg Position.line frame.start_fill
  rows := frame.rows_fill_of_apart hR h
  statement := fun line => hR.of_oneTextApart (frame.expressionRow_fill_apart n m line)

/-- So does one frame after the other. -/
theorem apart_foldr_fill
    (hR : Row.Tolerated R) (frames : List Frame) (h : Apart R n m) :
    Apart R (frames.foldr fill n) (frames.foldr fill m) := by
  induction frames with
  | nil => exact h
  | cons frame frames ih => exact frame.apart_fill hR ih

/-- Any two expressions that are statements give rows on the same line, with no `if` row. -/
theorem apart_fill_of_kind (hkind : (frame.fill n).kind = .expressionStatement) :
    Apart Row.AlikeAsHeads (frame.fill n) (frame.fill m) := by
  cases frame with
  | expressionStatement start =>
      have hlabel : ∀ e, (expressionRow .skip start.line e).label ≠ .ifStatement := by
        intro e
        rcases expressionRow_label .skip start.line e with he | he <;> simp [he]
      refine ⟨rfl, ?_, fun _ => ⟨rfl, Iff.rfl⟩⟩
      simp only [fill, rowsWith]
      refine .head ⟨?_, iff_of_false (hlabel m) (hlabel n)⟩ []
      rw [expressionRow_line, expressionRow_line]
  | _ => exact absurd hkind Kind.noConfusion

end Frame

end Node

/-- The rows change in one place at most, and there no more than `R` allows. -/
structure LocalChange (R : Row → Row → Prop) (rows rows' : List Row) : Prop where
  length_eq : rows'.length = rows.length
  lines_eq : rows'.map Row.line = rows.map Row.line
  changedOnce : ChangedOnce R rows rows'

theorem LocalChange.mono
    {R S : Row → Row → Prop} (hRS : ∀ {row row'}, R row row' → S row row')
    {rows rows' : List Row} (h : LocalChange R rows rows') : LocalChange S rows rows' :=
  ⟨h.length_eq, h.lines_eq, h.changedOnce.mono hRS⟩

namespace OpenSlot

theorem localChange_flatten_fill
    (slot : OpenSlot) {n m : Node} {R : Row → Row → Prop} (hR : Row.Tolerated R)
    (h : Node.Apart R (slot.frame.fill n) (slot.frame.fill m)) :
    LocalChange R (flatten (slot.fill n)) (flatten (slot.fill m)) := by
  have hchanged : ChangedOnce R (flatten (slot.fill n)) (flatten (slot.fill m)) := by
    simp only [flatten, flattenWith_eq, fill, List.flatMap_append, List.flatMap_cons]
    have hrows := (Node.Frame.apart_foldr_fill hR slot.outer h).rows
    exact (hrows.append_right _).append_left _
  have hlines := hchanged.map_line_eq hR
  exact ⟨by simpa using congrArg List.length hlines, hlines, hchanged⟩

end OpenSlot

/-- Whatever node takes the place of an operand, the number of rows and their lines stay, and one
row changes at most.  It changes in one text unless the operand is a statement by itself. -/
theorem flatten_replace_operand
    {statements : List Node} {address : List Nat} {parent c : Node} {role : Role} {i : Nat}
    (hparent : nodeAt? statements address = some parent)
    (hslot : parent.slots[i]? = some (role, c))
    (hrole : role = .expression ∨ role = .forInit) :
    (∃ slot : OpenSlot, slot.Opens statements address i c) ∧
      ∀ slot : OpenSlot, slot.Opens statements address i c → ∀ m,
        LocalChange (fun row row' => parent.kind ≠ .expressionStatement → row.OneTextApart row')
          (flatten statements) (flatten (slot.fill m)) := by
  refine ⟨OpenSlot.exists_opens hparent hslot, ?_⟩
  intro slot hopens m
  obtain rfl := hopens.frame_fill_eq hparent
  obtain rfl := hopens.frame_role_eq hslot
  obtain rfl := hopens.fill_eq
  by_cases hkind : (slot.frame.fill c).kind = .expressionStatement
  · have hapart : Node.Apart Row.AlikeAsHeads (slot.frame.fill c) (slot.frame.fill m) :=
      slot.frame.apart_fill_of_kind hkind
    have hlocal := slot.localChange_flatten_fill Row.tolerated_alikeAsHeads hapart
    exact hlocal.mono fun _ hne => absurd hkind hne
  · have hapart := slot.frame.apart_fill_of_operand c m hrole hkind
    have hlocal := slot.localChange_flatten_fill Row.tolerated_oneTextApart hapart
    exact hlocal.mono fun h _ => h

/-- An `if` statement in line 1 whose `else` branch, in line 2, tests whether `b` is below a
bound. -/
def elseIfBelow (bound : Node) : List Node :=
  [.ifStatement ⟨1, 0⟩ (.identifier ⟨1, 4⟩ "a") (.block ⟨1, 7⟩ [])
    (some (.ifStatement ⟨2, 7⟩ (.binary ⟨2, 11⟩ "<" (.identifier ⟨2, 11⟩ "b") bound)
      (.block ⟨2, 20⟩ []) none))]

/-- Another bound changes the condition of the `else if` row and nothing else. -/
theorem flatten_replace_operand_elseIfBelow :
    let c := Node.identifier ⟨2, 15⟩ "c"
    let test := Node.binary ⟨2, 11⟩ "<" (.identifier ⟨2, 11⟩ "b") c
    let counter := Node.update ⟨2, 15⟩ "++" (.identifier ⟨2, 15⟩ "i") false
    nodeAt? (elseIfBelow c) [0, 2, 0] = some test ∧ test.slots[1]? = some (.expression, c) ∧
      LocalChange Row.OneTextApart (flatten (elseIfBelow c)) (flatten (elseIfBelow counter)) ∧
      (flatten (elseIfBelow c)).map Row.condition = ["a", "b < c"] ∧
      (flatten (elseIfBelow counter)).map Row.condition = ["a", "b < i++"] := by
  intro c test counter
  have hopens : OpenSlot.Opens
      ⟨[], [.alternate ⟨1, 0⟩ _ _, .ifTest ⟨2, 7⟩ _ none], .rightOperand ⟨2, 11⟩ "<" _, []⟩
      (elseIfBelow c) [0, 2, 0] 1 c :=
    ⟨rfl, fun _ => rfl, fun _ => rfl⟩
  have hlocal := (flatten_replace_operand rfl rfl (Or.inl rfl)).2 _ hopens counter
  exact ⟨rfl, rfl, hlocal.mono fun h => h Kind.noConfusion, rfl, rfl⟩

end StatementTable
