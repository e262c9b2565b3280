import Mathlib.Data.List.Basic
import StatementTable.Proofs.RowValues
import StatementTable.Proofs.TableLayout

/-!
# Text tables are read back

A report of text tables stands for exactly one list of tables.  A reader finds the tables between
empty lines, the widths of the columns in the rule of a table, the cells of a row at the places
that the widths give, and the texts by undoing the escapes of the cells.  The source of a table
must be in one line, and the texts of its rows must not end in a blank or a bar, since these are
left out at the end of a line.
-/

namespace StatementTable.Report

/-! ## Cells -/

def unescapeCell : List Char → List Char
  | '\\' :: '\\' :: rest => '\\' :: unescapeCell rest
  | '\\' :: 'n' :: rest => '\n' :: unescapeCell rest
  | c :: rest => c :: unescapeCell rest
  | [] => []

theorem unescapeCell_cons {c : Char} (h : c ≠ '\\') (rest : List Char) :
    unescapeCell (c :: rest) = c :: unescapeCell rest := by
  rw [unescapeCell]
  · rintro _ rfl
    exact absurd rfl h
  · rintro _ rfl
    exact absurd rfl h

theorem unescapeCell_flatMap (cs : List Char) :
    unescapeCell (cs.flatMap escapeCellChar) = cs := by
  induction cs with
  | nil => rfl
  | cons c cs ih =>
      rw [List.flatMap_cons]
      by_cases hbackslash : c = '\\'
      · subst hbackslash
        exact congrArg ('\\' :: ·) ih
      · by_cases hnewline : c = '\n'
        · subst hnewline
          exact congrArg ('\n' :: ·) ih
        · rw [escapeCellChar, if_neg hbackslash, if_neg hnewline, List.singleton_append,
            unescapeCell_cons hbackslash, ih]

theorem ofList_unescapeCell (s : String) : String.ofList (unescapeCell (escapeCell s)) = s := by
  rw [escapeCell, unescapeCell_flatMap, String.ofList_toList]

theorem newline_notMem_escapeCell (s : String) : '\n' ∉ escapeCell s := by
  intro hmem
  obtain ⟨c, -, hc⟩ := List.mem_flatMap.mp hmem
  revert hc
  fun_cases escapeCellChar c with
  | case1 => decide
  | case2 => decide
  | case3 _ hnewline => simpa using Ne.symm hnewline

theorem endsVisibly_escapeCell {s : String} (h : EndsVisibly s.toList) :
    EndsVisibly (escapeCell s) := by
  rcases List.eq_nil_or_concat s.toList with hnil | ⟨cs, last, hlast⟩
  · rw [escapeCell, hnil]
    exact nofun
  · have hvisible : isFiller last = false := h last (by simp [hlast])
    have hescape : escapeCellChar last ≠ [] ∧ EndsVisibly (escapeCellChar last) := by
      fun_cases escapeCellChar last with
      | case1 => exact ⟨nofun, by rintro c ⟨⟩; rfl⟩
      | case2 => exact ⟨nofun, by rintro c ⟨⟩; rfl⟩
      | case3 => exact ⟨nofun, by rintro c ⟨⟩; exact hvisible⟩
    rw [escapeCell, hlast, List.concat_eq_append, List.flatMap_append, List.flatMap_singleton,
      EndsVisibly, List.getLast?_append_of_ne_nil _ hescape.1]
    exact hescape.2

def ofCells? : List (List Char) → Option Row
  | [line, label, name, condition, value] =>
    (Label.ofText? (String.ofList label)).map fun label =>
      { line := (Nat.ofDigitChars 10 line 0).toUInt64
        label
        name := String.ofList (unescapeCell name)
        condition := String.ofList (unescapeCell condition)
        value := String.ofList (unescapeCell value) }
  | _ => none

theorem ofCells?_cells (row : Row) : ofCells? (cells row) = some row := by
  simp [ofCells?, cells, Label.ofText?_text, ofList_unescapeCell, Nat.ofDigitChars_ten_toDigits]

/-! ## Rows -/

theorem isDigit_of_mem_toDigits {n : Nat} {c : Char} (hc : c ∈ Nat.toDigits 10 n) :
    c.isDigit = true :=
  Nat.isDigit_of_mem_toDigits (by decide) (by decide) hc

theorem isFiller_of_isDigit {c : Char} (hc : c.isDigit = true) : isFiller c = false := by
  rw [isFiller, Bool.or_eq_false_iff]
  constructor
  · rw [beq_eq_false_iff_ne]
    rintro rfl
    exact absurd hc (by decide)
  · rw [beq_eq_false_iff_ne]
    rintro rfl
    exact absurd hc (by decide)

theorem endsVisibly_label (label : Label) : EndsVisibly label.text.toList := by
  cases label <;> (rintro c ⟨⟩; rfl)

theorem endsVisibly_cells
    {row : Row} (hname : EndsVisibly row.name.toList)
    (hcondition : EndsVisibly row.condition.toList) (hvalue : EndsVisibly row.value.toList) :
    ∀ cell ∈ cells row, EndsVisibly cell := by
  intro cell hcell
  simp only [cells, List.mem_cons, List.not_mem_nil, or_false] at hcell
  rcases hcell with rfl | rfl | rfl | rfl | rfl
  · intro c hc
    exact isFiller_of_isDigit (isDigit_of_mem_toDigits (List.mem_of_mem_getLast? hc))
  · exact endsVisibly_label row.label
  · exact endsVisibly_escapeCell hname
  · exact endsVisibly_escapeCell hcondition
  · exact endsVisibly_escapeCell hvalue

theorem newline_notMem_cells (row : Row) : ∀ cell ∈ cells row, '\n' ∉ cell := by
  intro cell hcell
  simp only [cells, List.mem_cons, List.not_mem_nil, or_false] at hcell
  rcases hcell with rfl | rfl | rfl | rfl | rfl
  · intro hnewline
    exact absurd (isDigit_of_mem_toDigits hnewline) (by decide)
  · cases row.label <;> decide
  all_goals exact newline_notMem_escapeCell _

theorem newline_notMem_formatLine
    {row : List (List Char)} (h : ∀ cell ∈ row, '\n' ∉ cell) (widths : List Nat) :
    '\n' ∉ formatLine widths row := by
  intro hmem
  rcases mem_fullLine (Text.mem_of_mem_dropTrailing hmem) with hfiller | ⟨cell, hcell, hc⟩
  · exact absurd hfiller (by decide)
  · exact h cell hcell hc

/-- A line begins as its first cell does, if that is not with a blank or a bar. -/
theorem exists_formatLine_eq_cons
    {c : Char} (hc : isFiller c = false) (w : Nat) (widths : List Nat) (cell : List Char)
    (row : List (List Char)) :
    ∃ rest, formatLine (w :: widths) ((c :: cell) :: row) = c :: rest := by
  obtain ⟨full, hfull⟩ : ∃ full, fullLine (w :: widths) ((c :: cell) :: row) = c :: full := by
    rw [fullLine, List.zipWith_cons_cons]
    cases widths.zipWith pad row with
    | nil => exact ⟨_, List.intercalate_singleton⟩
    | cons next rest => exact ⟨_, List.intercalate_cons_cons⟩
  change ∃ rest, Text.dropTrailing isFiller (fullLine (w :: widths) ((c :: cell) :: row)) = _
  rw [hfull, Text.dropTrailing_cons hc]
  exact ⟨_, rfl⟩

theorem exists_digit_formatLine {widths : List Nat} (hwidths : widths ≠ []) (row : Row) :
    ∃ digit rest, digit.isDigit = true ∧ formatLine widths (cells row) = digit :: rest := by
  obtain ⟨w, widths, rfl⟩ := List.exists_cons_of_ne_nil hwidths
  obtain ⟨digit, digits, hdigits⟩ :=
    List.exists_cons_of_ne_nil (Nat.toDigits_ne_nil (b := 10) (n := row.line.toNat))
  have hdigit : digit.isDigit = true := isDigit_of_mem_toDigits (by rw [hdigits]; exact .head _)
  obtain ⟨rest, hrest⟩ := exists_formatLine_eq_cons (isFiller_of_isDigit hdigit) w widths digits
    (cells row).tail
  refine ⟨digit, rest, hdigit, ?_⟩
  rw [← hrest, ← hdigits]
  rfl

/-- The row of a line, given the widths of the columns. -/
def readRow? (widths : List Nat) (line : List Char) : Option Row :=
  ofCells? (readCells widths line)

/-- The rows of the lines below the rule. -/
def readBody? (widths : List Nat) (lines : List (List Char)) : Option (List Row) :=
  if lines = ["(no rows)".toList] then some [] else lines.mapM (readRow? widths)

/-! ## The rule -/

/-- The widths of the columns, of which each is two short of its part of the rule. -/
def readWidths (rule : List Char) : List Nat :=
  (('-' :: rule ++ ['-']).splitOn '+').map (·.length - 2)

theorem cons_rule_append {widths : List Nat} (hwidths : widths ≠ []) :
    '-' :: rule widths ++ ['-'] =
      ['+'].intercalate (widths.map fun w => List.replicate (w + 2) '-') := by
  induction widths with
  | nil => exact absurd rfl hwidths
  | cons w widths ih =>
      have hpart : List.replicate (w + 2) '-' = '-' :: List.replicate w '-' ++ ['-'] := by
        rw [List.replicate_succ, List.replicate_succ', List.cons_append]
      cases widths with
      | nil => simp [rule, hpart]
      | cons next widths =>
          have hrule : rule (w :: next :: widths) =
              List.replicate w '-' ++ ['-', '+', '-'] ++ rule (next :: widths) :=
            List.intercalate_cons_cons
          have hparts :
              ['+'].intercalate ((w :: next :: widths).map fun w => List.replicate (w + 2) '-') =
                List.replicate (w + 2) '-' ++ ['+'] ++
                  ['+'].intercalate ((next :: widths).map fun w => List.replicate (w + 2) '-') :=
            List.intercalate_cons_cons
          rw [hrule, hparts, ← ih (List.cons_ne_nil next widths), hpart]
          simp

theorem readWidths_rule {widths : List Nat} (hwidths : widths ≠ []) :
    readWidths (rule widths) = widths := by
  have hparts : ∀ part ∈ widths.map fun w => List.replicate (w + 2) '-', '+' ∉ part := by
    intro part hpart hplus
    obtain ⟨w, -, rfl⟩ := List.mem_map.mp hpart
    exact absurd (List.eq_of_mem_replicate hplus) (by decide)
  rw [readWidths, cons_rule_append hwidths, List.splitOn_intercalate '+' hparts (by simpa),
    List.map_map]
  simp [Function.comp_def]

/-! ## Tables -/

/-- Whether a table can be read back from its text: its source is in one line, and no text of a
row ends in what is left out at the end of a line. -/
structure Legible (table : Table) : Prop where
  source : '\n' ∉ table.source.toList
  name : ∀ row ∈ table.rows, EndsVisibly row.name.toList
  condition : ∀ row ∈ table.rows, EndsVisibly row.condition.toList
  value : ∀ row ∈ table.rows, EndsVisibly row.value.toList

def readTable? : List (List Char) → Option Table
  | title :: _ :: rule :: body =>
    (readBody? (readWidths rule) body).map fun rows =>
      { source := String.ofList (title.drop 3), rows }
  | _ => none

theorem widths_ne_nil (rows : List Row) : widths rows ≠ [] := by
  apply List.ne_nil_of_length_pos
  rw [length_widths]
  decide

theorem readRow?_formatLine
    {table : Table} (h : Legible table) {row : Row} (hrow : row ∈ table.rows) :
    readRow? (widths table.rows) (formatLine (widths table.rows) (cells row)) = some row := by
  have hvisible := endsVisibly_cells (h.name row hrow) (h.condition row hrow) (h.value row hrow)
  rw [readRow?, readCells_formatLine (fits_cells hrow) hvisible, ofCells?_cells]

theorem mapM_map_eq_some
    {α β : Type} {read : β → Option α} {write : α → β} {items : List α}
    (h : ∀ item ∈ items, read (write item) = some item) :
    (items.map write).mapM read = some items := by
  induction items with
  | nil => rfl
  | cons item items ih =>
      rw [List.map_cons, List.mapM_cons, h item (.head _),
        ih fun item hitem => h item (.tail _ hitem)]
      rfl

theorem readBody?_bodyLines {table : Table} (h : Legible table) :
    readBody? (widths table.rows) (bodyLines (widths table.rows) table.rows) =
      some table.rows := by
  have hlines : (table.rows.map fun row => formatLine (widths table.rows) (cells row)).mapM
      (readRow? (widths table.rows)) = some table.rows :=
    mapM_map_eq_some fun row hrow => readRow?_formatLine h hrow
  generalize hwidths : widths table.rows = ws at hlines
  have hne : ws ≠ [] := hwidths ▸ widths_ne_nil table.rows
  generalize table.rows = rows at hlines
  cases rows with
  | nil => rw [bodyLines, readBody?, if_pos rfl]
  | cons row rows =>
      obtain ⟨digit, rest, hdigit, hformat⟩ := exists_digit_formatLine hne row
      rw [bodyLines, readBody?, if_neg, hlines]
      · rw [List.map_cons, hformat]
        intro heq
        have hhead : digit = '(' := (List.cons.inj (List.cons.inj heq).1).1
        rw [hhead] at hdigit
        exact absurd hdigit (by decide)
      · exact nofun

theorem readTable?_tableLines {table : Table} (h : Legible table) :
    readTable? (tableLines table) = some table := by
  rw [tableLines, readTable?, readWidths_rule (widths_ne_nil table.rows), readBody?_bodyLines h,
    Option.map_some]
  simp

theorem rule_ne_nil (rows : List Row) : rule (widths rows) ≠ [] := by
  intro hnil
  have hwidths := readWidths_rule (widths_ne_nil rows)
  rw [hnil] at hwidths
  have hlength := length_widths rows
  rw [← hwidths] at hlength
  exact absurd hlength (by decide)

theorem newline_notMem_rule (widths : List Nat) : '\n' ∉ rule widths := by
  intro hmem
  rcases Text.mem_of_mem_intercalate hmem with hmem | ⟨part, hpart, hmem⟩
  · exact absurd hmem (by decide)
  · obtain ⟨w, -, rfl⟩ := List.mem_map.mp hpart
    exact absurd (List.eq_of_mem_replicate hmem) (by decide)

theorem mem_bodyLines
    {widths : List Nat} {rows : List Row} {line : List Char}
    (hline : line ∈ bodyLines widths rows) :
    line = "(no rows)".toList ∨ ∃ row ∈ rows, formatLine widths (cells row) = line := by
  cases rows with
  | nil => exact Or.inl (List.mem_singleton.mp hline)
  | cons row rows => exact Or.inr (List.mem_map.mp hline)

/-- The parts of a table are lines, and none of them is empty. -/
theorem ne_nil_and_newline_notMem
    {table : Table} (h : Legible table) {line : List Char} (hline : line ∈ tableLines table) :
    line ≠ [] ∧ '\n' ∉ line := by
  have hne := widths_ne_nil table.rows
  simp only [tableLines, List.mem_cons] at hline
  rcases hline with rfl | rfl | rfl | hbody
  · exact ⟨nofun, by simpa using h.source⟩
  · obtain ⟨w, ws, hws⟩ := List.exists_cons_of_ne_nil hne
    obtain ⟨rest, hrest⟩ :=
      exists_formatLine_eq_cons (c := 'L') rfl w ws "ine".toList headings.tail
    have hheadings : formatLine (widths table.rows) headings = 'L' :: rest := hws ▸ hrest
    exact ⟨by simp [hheadings], newline_notMem_formatLine (by decide) _⟩
  · exact ⟨rule_ne_nil table.rows, newline_notMem_rule _⟩
  · rcases mem_bodyLines hbody with rfl | ⟨row, -, rfl⟩
    · decide
    · obtain ⟨digit, rest, -, hformat⟩ := exists_digit_formatLine hne row
      exact ⟨by simp [hformat], newline_notMem_formatLine (newline_notMem_cells row) _⟩

/-! ## Reports -/

theorem intercalate_append
    {α : Type} {between : List α} {parts more : List (List α)} (hparts : parts ≠ [])
    (hmore : more ≠ []) :
    between.intercalate (parts ++ more) =
      between.intercalate parts ++ between ++ between.intercalate more := by
  induction parts with
  | nil => exact absurd rfl hparts
  | cons part parts ih =>
      cases parts with
      | nil =>
          obtain ⟨next, more, rfl⟩ := List.exists_cons_of_ne_nil hmore
          rw [List.intercalate_singleton]
          exact List.intercalate_cons_cons
      | cons next parts =>
          have hwhole : between.intercalate (part :: next :: parts ++ more) =
              part ++ between ++ between.intercalate (next :: parts ++ more) :=
            List.intercalate_cons_cons
          rw [hwhole, ih (List.cons_ne_nil next parts), List.intercalate_cons_cons]
          simp only [List.append_assoc]

theorem intercalate_ne_nil
    {α : Type} {between part : List α} (hpart : part ≠ []) (parts : List (List α)) :
    between.intercalate (part :: parts) ≠ [] := by
  cases parts with
  | nil => rwa [List.intercalate_singleton]
  | cons next parts =>
      rw [List.intercalate_cons_cons, List.append_assoc]
      exact List.append_ne_nil_of_left_ne_nil hpart _

/-- The runs of lines between empty lines. -/
def paragraphs (cs : List Char) : List (List (List Char)) :=
  ((cs.splitOn '\n').splitOn []).filter (· ≠ [])

/-- Runs of lines with an empty line after each of them. -/
def spaced (blocks : List (List (List Char))) : List (List Char) :=
  [[]].intercalate (blocks ++ [[]])

theorem spaced_cons_cons (block next : List (List Char)) (blocks : List (List (List Char))) :
    spaced (block :: next :: blocks) = block ++ [[]] ++ spaced (next :: blocks) :=
  List.intercalate_cons_cons

theorem intercalate_spaced
    {blocks : List (List (List Char))} (hne : blocks ≠ []) (h : ∀ block ∈ blocks, block ≠ []) :
    ['\n'].intercalate (spaced blocks) =
      ['\n', '\n'].intercalate (blocks.map (['\n'].intercalate ·)) ++ ['\n'] := by
  induction blocks with
  | nil => exact absurd rfl hne
  | cons block blocks ih =>
      have hblock := h block (.head _)
      cases blocks with
      | nil =>
          have hspaced : spaced [block] = block ++ [[]] := by simp [spaced]
          rw [hspaced, intercalate_append hblock (List.cons_ne_nil [] [])]
          simp
      | cons next blocks =>
          have hrest := ih (List.cons_ne_nil next blocks) fun block hmem => h block (.tail _ hmem)
          have hmore : spaced (next :: blocks) ≠ [] :=
            intercalate_ne_nil (h next (.tail _ (.head _))) _
          have htext : ['\n', '\n'].intercalate
              ((block :: next :: blocks).map (['\n'].intercalate ·)) =
                ['\n'].intercalate block ++ ['\n', '\n'] ++
                  ['\n', '\n'].intercalate ((next :: blocks).map (['\n'].intercalate ·)) :=
            List.intercalate_cons_cons
          rw [spaced_cons_cons, List.append_assoc, intercalate_append hblock (by simp),
            intercalate_append (List.cons_ne_nil [] []) hmore, hrest, htext]
          simp

/-- The runs of lines of a text are found again if none of the lines is empty. -/
theorem paragraphs_intercalate
    {blocks : List (List (List Char))} (hblocks : ∀ block ∈ blocks, block ≠ [])
    (hlines : ∀ block ∈ blocks, ∀ line ∈ block, line ≠ [] ∧ '\n' ∉ line) :
    paragraphs (['\n', '\n'].intercalate (blocks.map (['\n'].intercalate ·)) ++ ['\n']) =
      blocks := by
  by_cases hne : blocks = []
  · subst hne
    rfl
  · have hnewline : ∀ line ∈ spaced blocks, '\n' ∉ line := by
      intro line hline
      rcases Text.mem_of_mem_intercalate hline with hempty | ⟨block, hblock, hline⟩
      · rw [List.mem_singleton.mp hempty]
        exact List.not_mem_nil
      · rcases List.mem_append.mp hblock with hblock | hblock
        · exact (hlines block hblock line hline).2
        · rw [List.mem_singleton.mp hblock] at hline
          exact absurd hline List.not_mem_nil
    have hempty : ∀ block ∈ blocks ++ [[]], [] ∉ block := by
      intro block hblock hmem
      rcases List.mem_append.mp hblock with hblock | hblock
      · exact (hlines block hblock [] hmem).1 rfl
      · rw [List.mem_singleton.mp hblock] at hmem
        exact absurd hmem List.not_mem_nil
    have hspaced : spaced blocks ≠ [] := by
      obtain ⟨block, blocks, rfl⟩ := List.exists_cons_of_ne_nil hne
      exact intercalate_ne_nil (hblocks block (.head _)) _
    rw [paragraphs, ← intercalate_spaced hne hblocks,
      List.splitOn_intercalate '\n' hnewline hspaced, spaced,
      List.splitOn_intercalate [] hempty (by simp), List.filter_append]
    simpa using hblocks

/-- The tables of a report. -/
def readText? (text : String) : Option (List Table) :=
  (paragraphs text.toList).mapM readTable?

theorem readText?_text
    {tables : List Table} (h : ∀ table ∈ tables, Legible table) :
    readText? (text tables) = some tables := by
  have htext : (text tables).toList =
      ['\n', '\n'].intercalate ((tables.map tableLines).map (['\n'].intercalate ·)) ++ ['\n'] := by
    rw [text, String.toList_ofList, List.map_map]
    rfl
  have hparagraphs : paragraphs (text tables).toList = tables.map tableLines := by
    rw [htext]
    apply paragraphs_intercalate
    · intro block hblock
      obtain ⟨table, -, rfl⟩ := List.mem_map.mp hblock
      exact nofun
    · intro block hblock line hline
      obtain ⟨table, htable, rfl⟩ := List.mem_map.mp hblock
      exact ne_nil_and_newline_notMem (h table htable) hline
  rw [readText?, hparagraphs]
  exact mapM_map_eq_some fun table htable => readTable?_tableLines (h table htable)

/-- The text of a report of legible tables is read as these tables, so no other legible tables
have the same text. -/
theorem text_determines_tables
    (tables : List Table) (h : ∀ table ∈ tables, Legible table) :
    readText? (text tables) = some tables ∧
      ∀ others : List Table, (∀ table ∈ others, Legible table) →
        text others = text tables → others = tables := by
  have hread := readText?_text h
  refine ⟨hread, ?_⟩
  intro others hothers heq
  have hread' := readText?_text hothers
  rw [heq, hread] at hread'
  exact (Option.some.inj hread').symm

/-- Tables with blanks, bars, backslashes and line breaks in their cells, and one without rows. -/
def barsInCells : List Table :=
  [{ source := "a | b"
     rows := [{ line := 7, label := .assignment, name := "  x | y", value := "`\n\\n`" },
       { line := 1234567, label := .elseBranch }] },
   { source := "(no rows)", rows := [] }]

theorem text_determines_tables_barsInCells :
    (∀ table ∈ barsInCells, Legible table) ∧
      readText? (text barsInCells) = some barsInCells ∧
      ∀ others : List Table, (∀ table ∈ others, Legible table) →
        text others = text barsInCells → others = barsInCells := by
  have hlegible : ∀ table ∈ barsInCells, Legible table := by
    intro table htable
    simp only [barsInCells, List.mem_cons, List.not_mem_nil, or_false] at htable
    rcases htable with rfl | rfl
    · exact ⟨by decide, by decide, by decide, by decide⟩
    · exact ⟨by decide, nofun, nofun, nofun⟩
  exact ⟨hlegible, text_determines_tables barsInCells hlegible⟩

end StatementTable.Report
