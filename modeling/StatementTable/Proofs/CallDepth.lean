import StatementTable.Proofs.NodeHeight

/-!
# Calls inside one another

A walk calls itself for the children of a node, and what a node amounts to is found by calls for
nodes below it.  Here both are run with a limit on the number of calls that are inside one another,
and give up when a call would exceed it.  A walk needs exactly as many calls inside one another as
the tree is high.  Finding what a node amounts to needs no more than that, and less where the call
for a child is skipped: the sides of an assignment that is a statement, and the declarators in the
first clause of a `for` statement, are called for directly.
-/

namespace StatementTable

theorem mapM_eq_some_map
    {α β : Type} {f : α → Option β} {g : α → β} {items : List α}
    (h : ∀ item ∈ items, f item = some (g item)) : items.mapM f = some (items.map g) := by
  induction items with
  | nil => rfl
  | cons item items ih =>
      have hrest := ih fun other hother => h other (List.mem_cons_of_mem item hother)
      rw [List.mapM_cons, h item List.mem_cons_self, hrest]
      rfl

theorem mapM_eq_none_of_mem
    {α β : Type} {f : α → Option β} {items : List α} {item : α} (hitem : item ∈ items)
    (h : f item = none) : items.mapM f = none := by
  induction items with
  | nil => cases hitem
  | cons first rest ih =>
      rw [List.mapM_cons]
      rcases List.mem_cons.mp hitem with rfl | hitem
      · rw [h]
        rfl
      · rw [ih hitem]
        cases f first <;> rfl

namespace Node

/-! ## Walking -/

/-- A walk with at most so many calls inside one another, or `none` if it takes more. -/
def walkWithin : Nat → Node → Option (List Node)
  | 0, _ => none
  | limit + 1, n => (n.children.mapM (walkWithin limit)).map fun walks => n :: walks.flatten

/-- A walk takes as many calls inside one another as the tree is high. -/
theorem walkWithin_eq (limit : Nat) (n : Node) :
    n.walkWithin limit = if n.height ≤ limit then some n.walk else none := by
  induction limit generalizing n with
  | zero => rw [walkWithin, if_neg (Nat.not_le_of_gt n.height_pos)]
  | succ limit ih =>
      rw [walkWithin]
      by_cases hheight : n.height ≤ limit + 1
      · have hwalks : n.children.mapM (walkWithin limit) = some (n.children.map walk) := by
          apply mapM_eq_some_map
          intro c hc
          rw [ih c, if_pos (height_le_succ_iff.mp hheight c hc)]
        rw [if_pos hheight, hwalks, walk_eq]
        rfl
      · obtain ⟨c, hc, hhigh⟩ : ∃ c ∈ n.children, ¬c.height ≤ limit := by
          simpa using mt height_le_succ_iff.mpr hheight
        rw [if_neg hheight, mapM_eq_none_of_mem hc (by rw [ih c, if_neg hhigh])]
        rfl

/-! ## Finding what a node amounts to -/

section Calls

variable (call : Node → Option Outcome)

/-- The text of a node by a call. -/
def textBy (n : Node) : Option String :=
  (call n).map Outcome.toText

def optionTextBy : Option Node → Option String
  | none => some ""
  | some n => textBy call n

/-- The rows of a node by a call. -/
def rowsBy (n : Node) : Option (List Row) :=
  (call n).map Outcome.toRows

def alternateRowsBy : Option Node → Option (List Row)
  | none => some []
  | some alternate => (rowsBy call alternate).map (elseRows alternate.line)

/-- The row of an expression that is a statement by calls. -/
def expressionRowBy (line : UInt64) : Node → Option Row
  | .assignment _ _ left right => do
    let name ← textBy call left
    let value ← textBy call right
    return { line := line, label := .assignment, name := name, value := value }
  | expression => do
    let value ← textBy call expression
    return { line := line, label := .update, value := value }

def declaratorRowBy (line : UInt64) : Declarator → Option Row
  | .mk id init => do
    let name ← textBy call id
    let value ← optionTextBy call init
    return { line := line, label := .variableDeclaration, name := name, value := value }

def clauseBy : Declarator → Option String
  | .mk id none => textBy call id
  | .mk id (some init) => do
    return (← textBy call id) ++ "=" ++ (← textBy call init)

def initClauseBy : Option Node → Option String
  | some (.variableDeclaration _ declarations) =>
    (declarations.mapM (clauseBy call)).map ",".intercalate
  | init => optionTextBy call init

/-- What a node amounts to by calls for nodes below it. -/
def outcomeBy : Node → Option Outcome
  | .expressionStatement start expression => do
    let row ← expressionRowBy call start.line expression
    return .statement [row]
  | .functionDeclaration start id params body => do
    let name ← optionTextBy call id
    let names ← params.mapM (textBy call)
    let rows ← rowsBy call body
    return .statement
      ({ line := start.line, label := .functionDeclaration, name := name } ::
        names.map (fun name =>
          { line := start.line, label := .variableDeclaration, name := name }) ++ rows)
  | .variableDeclaration start declarations => do
    let rows ← declarations.mapM (declaratorRowBy call start.line)
    return .statement rows
  | .whileStatement start test body => do
    let condition ← textBy call test
    let rows ← rowsBy call body
    return .statement
      ({ line := start.line, label := .whileStatement, condition := condition } :: rows)
  | .ifStatement start test consequent alternate => do
    let condition ← textBy call test
    let rows ← rowsBy call consequent
    let branch ← alternateRowsBy call alternate
    return .statement
      ({ line := start.line, label := .ifStatement, condition := condition } :: rows ++ branch)
  | .returnStatement start argument => do
    let value ← optionTextBy call argument
    return .statement [{ line := start.line, label := .returnStatement, value := value }]
  | .block _ body => do
    let rows ← body.mapM (rowsBy call)
    return .statement rows.flatten
  | .forStatement start init test step body => do
    let init ← initClauseBy call init
    let test ← optionTextBy call test
    let step ← optionTextBy call step
    let rows ← rowsBy call body
    return .statement
      ({ line := start.line, label := .forStatement,
         condition := init ++ ";" ++ test ++ ";" ++ step } :: rows)
  | .binary _ operator left right => do
    let leftText ← textBy call left
    let rightText ← textBy call right
    return .expression
      (operandText left.isBinary leftText ++ " " ++ operator ++ " " ++
        operandText right.isBinary rightText)
  | .unary _ operator argument => do
    let text ← textBy call argument
    return .expression (operator ++ text)
  | .update start operator argument leading => do
    let text ← textBy call argument
    return .update start.line (updateText operator text leading)
  | .member _ object property => do
    let objectText ← textBy call object
    let propertyText ← textBy call property
    return .expression (objectText ++ "[" ++ propertyText ++ "]")
  | .assignment _ operator left right => do
    let leftText ← textBy call left
    let rightText ← textBy call right
    return .expression (leftText ++ operator ++ rightText)
  | .identifier _ name => some (.expression name)
  | .literal _ raw => some (.expression raw)
  | .unsupported start => some (Fallback.skip start)

end Calls

/-- What a node amounts to, found with at most so many calls inside one another, or `none` if it
takes more. -/
def outcomeWithin : Nat → Node → Option Outcome
  | 0, _ => none
  | limit + 1, n => outcomeBy (outcomeWithin limit) n

section Answers

variable {call : Node → Option Outcome}

/-- A call for a node gives what the node amounts to. -/
def AnsweredBy (call : Node → Option Outcome) (n : Node) : Prop :=
  call n = some (n.outcomeWith .skip)

theorem textBy_eq {n : Node} (h : n.AnsweredBy call) :
    textBy call n = some (n.renderWith .skip) := by
  rw [textBy, h, Option.map_some, toText_outcomeWith]

theorem rowsBy_eq {n : Node} (h : n.AnsweredBy call) :
    rowsBy call n = some (n.rowsWith .skip) := by
  rw [rowsBy, h, Option.map_some, toRows_outcomeWith]

theorem optionTextBy_eq {o : Option Node} (h : ∀ n ∈ o.toList, n.AnsweredBy call) :
    optionTextBy call o = some (renderOptionWith .skip o) := by
  cases o with
  | none => rfl
  | some n => exact textBy_eq (h n (by simp))

theorem alternateRowsBy_eq {o : Option Node} (h : ∀ n ∈ o.toList, n.AnsweredBy call) :
    alternateRowsBy call o = some (alternateRowsWith .skip o) := by
  cases o with
  | none => simp [alternateRowsBy, alternateRowsWith]
  | some n => simp [alternateRowsBy, alternateRowsWith, rowsBy_eq (h n (by simp))]

theorem expressionRowBy_eq
    {expression : Node} (h : expression.AnsweredBy call)
    (hchildren : ∀ c ∈ expression.children, c.AnsweredBy call) (line : UInt64) :
    expressionRowBy call line expression = some (expressionRow .skip line expression) := by
  cases expression with
  | assignment start operator left right =>
      have hleft := textBy_eq (hchildren left (by simp [children, slots]))
      have hright := textBy_eq (hchildren right (by simp [children, slots]))
      simp [expressionRowBy, expressionRow, hleft, hright]
  | _ => simp [expressionRowBy, expressionRow, textBy_eq h]

theorem declaratorRowBy_eq
    {d : Declarator} (h : ∀ n ∈ d.parts, n.AnsweredBy call) (line : UInt64) :
    declaratorRowBy call line d = some (d.row .skip line) := by
  obtain ⟨id, init⟩ := d
  have hid := textBy_eq (h id List.mem_cons_self)
  have hinit := optionTextBy_eq fun n hn => h n (List.mem_cons_of_mem id hn)
  simp [declaratorRowBy, Declarator.row, hid, hinit]

theorem clauseBy_eq {d : Declarator} (h : ∀ n ∈ d.parts, n.AnsweredBy call) :
    clauseBy call d = some (d.clause .skip) := by
  obtain ⟨id, init⟩ := d
  have hid := textBy_eq (h id List.mem_cons_self)
  cases init with
  | none => exact hid
  | some init =>
      have hinit := textBy_eq (h init (by simp [Declarator.parts]))
      simp [clauseBy, Declarator.clause, hid, hinit]

theorem initClauseBy_eq
    {init : Option Node} (h : ∀ n ∈ init.toList, n.AnsweredBy call)
    (hchildren : ∀ n ∈ init.toList, ∀ c ∈ n.children, c.AnsweredBy call) :
    initClauseBy call init = some (initClause .skip init) := by
  cases init with
  | none => rfl
  | some n =>
      cases n with
      | variableDeclaration start declarations =>
          have hclauses : declarations.mapM (clauseBy call) =
              some (declarations.map (Declarator.clause .skip)) := by
            apply mapM_eq_some_map
            intro d hd
            apply clauseBy_eq
            intro c hc
            refine hchildren (.variableDeclaration start declarations) (by simp) c ?_
            simpa [children, slots, Function.comp_def] using ⟨d, hd, hc⟩
          simp [initClauseBy, initClause, hclauses]
      | _ => exact optionTextBy_eq h

/-- What a node amounts to is found if the calls for all nodes that are less high give what these
amount to. -/
theorem outcomeBy_eq {n : Node} (h : ∀ m : Node, m.height < n.height → m.AnsweredBy call) :
    outcomeBy call n = some (n.outcomeWith .skip) := by
  have hchildren : ∀ c ∈ n.children, c.AnsweredBy call := fun c hc =>
    h c (height_lt_of_mem_children hc)
  have hbelow : ∀ c ∈ n.children, ∀ m ∈ c.children, m.AnsweredBy call := fun c hc m hm =>
    h m (Nat.lt_trans (height_lt_of_mem_children hm) (height_lt_of_mem_children hc))
  clear h
  cases n with
  | expressionStatement start expression =>
      have hmem : expression ∈ (expressionStatement start expression).children := by
        simp [children, slots]
      have hrow := expressionRowBy_eq (hchildren _ hmem) (hbelow _ hmem) start.line
      simp [outcomeBy, hrow, outcomeWith, rowsWith]
  | functionDeclaration start id params body =>
      obtain ⟨hid, hparams, hbody⟩ : (∀ n ∈ id.toList, n.AnsweredBy call) ∧
          (∀ n ∈ params, n.AnsweredBy call) ∧ body.AnsweredBy call := by
        simpa [children, slots, or_imp, forall_and, Function.comp_def] using hchildren
      have hnames : params.mapM (textBy call) = some (params.map (renderWith .skip)) :=
        mapM_eq_some_map fun n hn => textBy_eq (hparams n hn)
      simp [outcomeBy, optionTextBy_eq hid, hnames, rowsBy_eq hbody, outcomeWith, rowsWith,
        parameterRow]
  | variableDeclaration start declarations =>
      have hrows : declarations.mapM (declaratorRowBy call start.line) =
          some (declarations.map (Declarator.row .skip start.line)) := by
        apply mapM_eq_some_map
        intro d hd
        apply declaratorRowBy_eq
        intro c hc
        apply hchildren
        simpa [children, slots, Function.comp_def] using ⟨d, hd, hc⟩
      simp [outcomeBy, hrows, outcomeWith, rowsWith]
  | whileStatement start test body =>
      obtain ⟨htest, hbody⟩ : test.AnsweredBy call ∧ body.AnsweredBy call := by
        simpa [children, slots] using hchildren
      simp [outcomeBy, textBy_eq htest, rowsBy_eq hbody, outcomeWith, rowsWith]
  | ifStatement start test consequent alternate =>
      obtain ⟨htest, hconsequent, halternate⟩ : test.AnsweredBy call ∧
          consequent.AnsweredBy call ∧ ∀ n ∈ alternate.toList, n.AnsweredBy call := by
        simpa [children, slots, Function.comp_def] using hchildren
      simp [outcomeBy, textBy_eq htest, rowsBy_eq hconsequent, alternateRowsBy_eq halternate,
        outcomeWith, rowsWith]
  | returnStatement start argument =>
      have hargument : ∀ n ∈ argument.toList, n.AnsweredBy call := by
        simpa [children, slots, Function.comp_def] using hchildren
      simp [outcomeBy, optionTextBy_eq hargument, outcomeWith, rowsWith]
  | block start body =>
      have hrows : body.mapM (rowsBy call) = some (body.map (rowsWith .skip)) := by
        apply mapM_eq_some_map
        intro n hn
        exact rowsBy_eq (hchildren n (by simpa [children, slots, Function.comp_def] using hn))
      simp [outcomeBy, hrows, outcomeWith, rowsWith, listRowsWith_eq, List.flatMap]
  | forStatement start init test step body =>
      obtain ⟨hinit, htest, hstep, hbody⟩ : (∀ n ∈ init.toList, n.AnsweredBy call) ∧
          (∀ n ∈ test.toList, n.AnsweredBy call) ∧ (∀ n ∈ step.toList, n.AnsweredBy call) ∧
            body.AnsweredBy call := by
        simpa [children, slots, or_imp, forall_and, Function.comp_def] using hchildren
      have hinside : ∀ n ∈ init.toList, ∀ c ∈ n.children, c.AnsweredBy call := by
        intro n hn
        apply hbelow
        simp [children, slots, Function.comp_def, hn]
      simp [outcomeBy, initClauseBy_eq hinit hinside, optionTextBy_eq htest,
        optionTextBy_eq hstep, rowsBy_eq hbody, outcomeWith, rowsWith, forCondition]
  | binary start operator left right | member start left right
  | assignment start operator left right =>
      obtain ⟨hleft, hright⟩ : left.AnsweredBy call ∧ right.AnsweredBy call := by
        simpa [children, slots] using hchildren
      simp [outcomeBy, textBy_eq hleft, textBy_eq hright, outcomeWith, renderWith]
  | unary start operator argument | update start operator argument leading =>
      have hargument : argument.AnsweredBy call := by
        simpa [children, slots] using hchildren
      simp [outcomeBy, textBy_eq hargument, outcomeWith, renderWith]
  | identifier | literal | unsupported => simp [outcomeBy, outcomeWith, renderWith]

/-- To find what a node amounts to takes no more calls inside one another than the node is
high. -/
theorem outcomeWithin_eq_some {limit : Nat} {n : Node} (h : n.height ≤ limit) :
    n.outcomeWithin limit = some (n.outcomeWith .skip) := by
  induction limit generalizing n with
  | zero => exact absurd h (Nat.not_le_of_gt n.height_pos)
  | succ limit ih =>
      rw [outcomeWithin]
      exact outcomeBy_eq fun m hm => ih (Nat.le_of_lt_succ (Nat.lt_of_lt_of_le hm h))

end Answers

end Node

end StatementTable
