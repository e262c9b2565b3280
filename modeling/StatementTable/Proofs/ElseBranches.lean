import StatementTable.Proofs.Slots

/-!
# Every `else` row has its `if` row

Rows are read one by one while counting the `if` rows that are open: an `if` row opens one, an
`else` row closes one, and an `else if` row needs an open one and leaves it open.  Reading the
rows of a program never meets an `else` or `else if` row while none is open.  The rows of any
statement keep as many open as there were before, which makes the argument compose.
-/

namespace StatementTable

def labelCount (label : Label) (rows : List Row) : Nat :=
  rows.countP (·.label = label)

/-- The number of open `if` rows after one more row, or `none` if the row needs an open one and
there is none. -/
def branchStep (opened : Nat) (row : Row) : Option Nat :=
  match row.label with
  | .ifStatement => some (opened + 1)
  | .elseIf => if 0 < opened then some opened else none
  | .elseBranch => if 0 < opened then some (opened - 1) else none
  | _ => some opened

def branchRun (opened : Nat) (rows : List Row) : Option Nat :=
  rows.foldlM branchStep opened

/-- Rows that can be read from any number of open `if` rows and close none of them. -/
def KeepsOpen (rows : List Row) : Prop :=
  ∀ opened, ∃ still, branchRun opened rows = some still ∧ opened ≤ still

/-! ## Reading rows -/

section Reading

variable {opened still : Nat} {row : Row} {rows rows₁ rows₂ : List Row}

theorem branchRun_cons :
    branchRun opened (row :: rows) = some still ↔
      ∃ middle, branchStep opened row = some middle ∧ branchRun middle rows = some still := by
  simp [branchRun, List.foldlM_cons, Option.bind_eq_some_iff]

theorem branchRun_append :
    branchRun opened (rows₁ ++ rows₂) = some still ↔
      ∃ middle, branchRun opened rows₁ = some middle ∧ branchRun middle rows₂ = some still := by
  simp [branchRun, List.foldlM_append, Option.bind_eq_some_iff]

/-- What a row does to the number of open `if` rows. -/
theorem branchStep_cases (h : branchStep opened row = some still) :
    (row.label = .ifStatement ∧ still = opened + 1) ∨
      (row.label = .elseIf ∧ 0 < opened ∧ still = opened) ∨
      (row.label = .elseBranch ∧ opened = still + 1) ∨
      (row.label ≠ .ifStatement ∧ row.label ≠ .elseIf ∧ row.label ≠ .elseBranch ∧
        still = opened) := by
  unfold branchStep at h
  cases hlabel : row.label <;> simp [hlabel] at h ⊢ <;> omega

/-- The open `if` rows are those that have been read and not been closed. -/
theorem branchRun_labelCount (h : branchRun opened rows = some still) :
    opened + labelCount .ifStatement rows = still + labelCount .elseBranch rows := by
  induction rows generalizing opened with
  | nil => simpa [branchRun, labelCount] using h
  | cons row rows ih =>
      obtain ⟨middle, hstep, hrun⟩ := branchRun_cons.mp h
      have hcount := ih hrun
      simp only [labelCount, List.countP_cons] at hcount ⊢
      obtain ⟨hlabel, rfl⟩ | ⟨hlabel, -, rfl⟩ | ⟨hlabel, rfl⟩ | ⟨hif, -, helse, rfl⟩ :=
        branchStep_cases hstep
      · simp [hlabel]
        omega
      · simpa [hlabel] using hcount
      · simp [hlabel]
        omega
      · simpa [hif, helse] using hcount

theorem exists_branchRun_take
    (h : branchRun opened rows = some still) (i : Nat) :
    ∃ middle, branchRun opened (rows.take i) = some middle ∧
      branchRun middle (rows.drop i) = some still := by
  rw [← List.take_append_drop i rows] at h
  exact branchRun_append.mp h

theorem labelCount_take_le
    (h : branchRun 0 rows = some still) (i : Nat) :
    labelCount .elseBranch (rows.take i) ≤ labelCount .ifStatement (rows.take i) := by
  obtain ⟨middle, htake, -⟩ := exists_branchRun_take h i
  have hcount := branchRun_labelCount htake
  omega

/-- A row that needs an open `if` row has one before it. -/
theorem labelCount_take_lt
    (h : branchRun 0 rows = some still) {i : Nat} (hi : i < rows.length)
    (hlabel : rows[i].label = .elseBranch ∨ rows[i].label = .elseIf) :
    labelCount .elseBranch (rows.take i) < labelCount .ifStatement (rows.take i) := by
  obtain ⟨middle, htake, hdrop⟩ := exists_branchRun_take h i
  rw [List.drop_eq_getElem_cons hi] at hdrop
  obtain ⟨next, hstep, -⟩ := branchRun_cons.mp hdrop
  have hcount := branchRun_labelCount htake
  have hopen : 0 < middle := by
    have hcases := branchStep_cases hstep
    rcases hlabel with hlabel | hlabel
    · simp [hlabel] at hcases
      omega
    · simp [hlabel] at hcases
      omega
  omega

end Reading

/-! ## The rows of a tree -/

section Keeping

variable {line : UInt64} {rows rows₁ rows₂ : List Row}

theorem KeepsOpen.nil : KeepsOpen [] :=
  fun opened => ⟨opened, rfl, Nat.le_refl opened⟩

theorem KeepsOpen.append
    (h₁ : KeepsOpen rows₁) (h₂ : KeepsOpen rows₂) : KeepsOpen (rows₁ ++ rows₂) := by
  intro opened
  obtain ⟨middle, hrun₁, hle₁⟩ := h₁ opened
  obtain ⟨still, hrun₂, hle₂⟩ := h₂ middle
  exact ⟨still, branchRun_append.mpr ⟨middle, hrun₁, hrun₂⟩, Nat.le_trans hle₁ hle₂⟩

theorem KeepsOpen.flatMap
    {nodes : List Node} {rowsOf : Node → List Row}
    (h : ∀ n ∈ nodes, KeepsOpen (rowsOf n)) : KeepsOpen (nodes.flatMap rowsOf) := by
  induction nodes with
  | nil => exact KeepsOpen.nil
  | cons n nodes ih =>
      rw [List.flatMap_cons]
      exact (h n List.mem_cons_self).append (ih fun m hm => h m (List.mem_cons_of_mem n hm))

/-- The rows of an `else` branch need one open `if` row, which they may close.  Relabelling the
first row as an `else if` row takes back the `if` row that it opened. -/
theorem branchRun_elseRows
    (h : KeepsOpen rows) (opened : Nat) :
    ∃ still, branchRun (opened + 1) (elseRows line rows) = some still ∧ opened ≤ still := by
  obtain ⟨still, hrun, hle⟩ := h opened
  refine ⟨still, ?_, hle⟩
  obtain ⟨head, tail, rfl, hlabel, heq⟩ | ⟨-, heq⟩ := elseRows_cases line rows
  · obtain ⟨middle, hstep, htail⟩ := branchRun_cons.mp hrun
    have hmiddle : middle = opened + 1 := by simpa [branchStep, hlabel] using hstep.symm
    rw [heq]
    exact branchRun_cons.mpr ⟨opened + 1, by simp [branchStep, Row.relabel], hmiddle ▸ htail⟩
  · rw [heq]
    exact branchRun_cons.mpr ⟨opened, by simp [branchStep], hrun⟩

/-- Rows that need no open `if` row can always be read. -/
theorem KeepsOpen.of_forall
    (h : ∀ row ∈ rows, row.label ≠ .elseIf ∧ row.label ≠ .elseBranch) : KeepsOpen rows := by
  induction rows with
  | nil => exact KeepsOpen.nil
  | cons row rows ih =>
      intro opened
      obtain ⟨helseIf, helse⟩ := h row List.mem_cons_self
      have htail := ih fun row hrow => h row (List.mem_cons_of_mem _ hrow)
      have hstep : ∃ middle, branchStep opened row = some middle ∧ opened ≤ middle := by
        unfold branchStep
        cases hlabel : row.label <;> simp_all
      obtain ⟨middle, hstep, hle⟩ := hstep
      obtain ⟨still, hrun, hle'⟩ := htail middle
      exact ⟨still, branchRun_cons.mpr ⟨middle, hstep, hrun⟩, Nat.le_trans hle hle'⟩

end Keeping

namespace Node

theorem keepsOpen_ownRows (n : Node) : KeepsOpen (n.ownRowsWith .skip) := by
  apply KeepsOpen.of_forall
  intro row hrow
  obtain ⟨-, hkind, helseIf⟩ := source_of_mem_ownRows hrow
  refine ⟨helseIf, ?_⟩
  intro helse
  rw [helse] at hkind
  exact absurd hkind List.not_mem_nil

/-- An `if` statement opens an `if` row that its `else` branch may close. -/
theorem keepsOpen_ifStatement
    (start : Position) (test consequent alternate : Node)
    (hconsequent : KeepsOpen (consequent.rowsWith .skip))
    (halternate : KeepsOpen (alternate.rowsWith .skip)) :
    KeepsOpen ((ifStatement start test consequent (some alternate)).rowsWith .skip) := by
  intro opened
  obtain ⟨middle, hrun, hle⟩ := hconsequent (opened + 1)
  obtain ⟨middle, rfl⟩ := Nat.exists_eq_add_of_le' (Nat.le_trans (Nat.le_add_left 1 opened) hle)
  obtain ⟨still, helse, hle'⟩ := branchRun_elseRows halternate middle
  refine ⟨still, ?_, by omega⟩
  rw [rowsWith]
  exact branchRun_append.mpr
    ⟨middle + 1, branchRun_cons.mpr ⟨opened + 1, by simp [branchStep], hrun⟩, helse⟩

/-- The rows of a node keep all `if` rows open that were open before. -/
theorem keepsOpen_rows (n : Node) : KeepsOpen (n.rowsWith .skip) := by
  induction n using children_induction with
  | node n ih =>
      have hrole : ∀ role, ∀ c ∈ n.inRole role, KeepsOpen (c.rowsWith .skip) :=
        fun role c hc => ih c (mem_children_of_mem_inRole hc)
      rcases inRole_alternate_cases n with hnone | ⟨start, test, consequent, alternate, rfl⟩
      · rw [rowsWith_eq, hnone, List.flatMap_nil, List.append_nil]
        exact n.keepsOpen_ownRows.append (KeepsOpen.flatMap (hrole .statement))
      · exact keepsOpen_ifStatement start test consequent alternate
          (hrole .statement consequent (by simp [inRole, slots]))
          (hrole .alternate alternate (by simp [inRole, slots]))

end Node

/-- Before every `else` or `else if` row there are more `if` rows than `else` rows.  So the rows
begin with neither, and no run of rows from the beginning has more `else` rows than `if` rows. -/
theorem flatten_else_after_if (statements : List Node) :
    let rows := flatten statements
    (∀ (i : Nat) (hi : i < rows.length),
      rows[i].label = .elseBranch ∨ rows[i].label = .elseIf →
        labelCount .elseBranch (rows.take i) < labelCount .ifStatement (rows.take i)) ∧
    (∀ row ∈ rows.head?, row.label ≠ .elseBranch ∧ row.label ≠ .elseIf) ∧
    ∀ i, labelCount .elseBranch (rows.take i) ≤ labelCount .ifStatement (rows.take i) := by
  intro rows
  have hrows : KeepsOpen rows := by
    have hflatMap := KeepsOpen.flatMap fun n (_ : n ∈ statements) => n.keepsOpen_rows
    rw [← flattenWith_eq] at hflatMap
    exact hflatMap
  obtain ⟨still, hrun, -⟩ := hrows 0
  refine ⟨fun i hi hlabel => labelCount_take_lt hrun hi hlabel, ?_, labelCount_take_le hrun⟩
  intro row hrow
  obtain ⟨hlength, rfl⟩ := List.getElem?_eq_some_iff.mp (List.head?_eq_getElem? ▸ hrow)
  rw [← not_or]
  intro hlabel
  exact absurd (labelCount_take_lt hrun hlength hlabel) (Nat.lt_irrefl 0)

end StatementTable
