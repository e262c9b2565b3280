import Mathlib.Data.List.DropRight
import StatementTable.Flatten.Rows
import StatementTable.Proofs.TableLayout

/-!
# Where the cells of a row stand

The widths of the columns say where each column begins.  A line from the beginning of a column on
is the line of the columns from there on, so what is left of a cell depends on the cell and on the
cells to its right only.  The end of the line is cut without regard to the cells: a bar at the end
of a cell is taken for one that stands between cells, unless something visible follows in a later
column.  Where this does not happen, a cell stands in full at the place of its column.
-/

namespace StatementTable

namespace Text

variable {p : Char → Bool}

/-- A text is what is left of it and what was taken off. -/
theorem exists_eq_dropTrailing_append (p : Char → Bool) (cs : List Char) :
    ∃ trail, cs = dropTrailing p cs ++ trail ∧ (∀ c ∈ trail, p c = true) ∧
      ∀ c ∈ (dropTrailing p cs).getLast?, p c = false := by
  refine ⟨cs.rtakeWhile p, List.rdropWhile_append_rtakeWhile.symm,
    fun c hc => List.mem_rtakeWhile_imp hc, ?_⟩
  intro c hc
  obtain ⟨hne, rfl⟩ := List.mem_getLast?_eq_getLast hc
  exact Bool.eq_false_iff.mpr (List.rdropWhile_last_not p cs hne)

theorem dropTrailing_prefix (p : Char → Bool) (cs : List Char) : dropTrailing p cs <+: cs :=
  List.rdropWhile_prefix p cs

theorem drop_dropTrailing (n : Nat) (cs : List Char) :
    (dropTrailing p cs).drop n = dropTrailing p (cs.drop n) := by
  obtain ⟨trail, hcs, htrail, hlast⟩ := exists_eq_dropTrailing_append p cs
  have hdrop : cs.drop n =
      (dropTrailing p cs).drop n ++ trail.drop (n - (dropTrailing p cs).length) := by
    rw [← List.drop_append, ← hcs]
  rw [hdrop]
  symm
  apply dropTrailing_append
  · intro c hc
    rw [List.getLast?_drop] at hc
    split at hc
    · exact absurd hc (Option.not_mem_none c)
    · exact hlast c hc
  · intro c hc
    exact htrail c (List.mem_of_mem_drop hc)

theorem dropTrailing_append_of_forall
    (cs : List Char) {trail : List Char} (htrail : ∀ c ∈ trail, p c = true) :
    dropTrailing p (cs ++ trail) = dropTrailing p cs := by
  obtain ⟨rest, hcs, hrest, hlast⟩ := exists_eq_dropTrailing_append p cs
  have happend : cs ++ trail = dropTrailing p cs ++ (rest ++ trail) := by
    rw [← List.append_assoc, ← hcs]
  rw [happend]
  apply dropTrailing_append hlast
  intro c hc
  exact (List.mem_append.mp hc).elim (hrest c) (htrail c)

theorem dropTrailing_append_of_exists
    (cs : List Char) {following : List Char} (hvisible : ∃ c ∈ following, p c = false) :
    dropTrailing p (cs ++ following) = cs ++ dropTrailing p following := by
  obtain ⟨trail, hfollowing, htrail, hlast⟩ := exists_eq_dropTrailing_append p following
  have hne : dropTrailing p following ≠ [] := by
    intro hnil
    obtain ⟨c, hc, hpc⟩ := hvisible
    rw [hfollowing, hnil, List.nil_append] at hc
    exact Bool.false_ne_true (hpc.symm.trans (htrail c hc))
  have happend : cs ++ following = cs ++ dropTrailing p following ++ trail := by
    rw [List.append_assoc, ← hfollowing]
  rw [happend]
  apply dropTrailing_append _ htrail
  rw [List.getLast?_append_of_ne_nil _ hne]
  exact hlast

end Text

namespace Report

/-! ## Places -/

/-- Where a column begins. -/
def columnStart : List Nat → Nat → Nat
  | w :: widths, k + 1 => w + separator.length + columnStart widths k
  | _, _ => 0

/-- A cell without the blanks at its end. -/
def shown (cell : List Char) : List Char :=
  Text.dropTrailing (· == ' ') cell

/-- A text stands in a line at the place where a column begins. -/
def StandsIn (widths : List Nat) (k : Nat) (piece line : List Char) : Prop :=
  piece <+: line.drop (columnStart widths k)

instance (widths : List Nat) (k : Nat) (piece line : List Char) :
    Decidable (StandsIn widths k piece line) :=
  inferInstanceAs (Decidable (_ <+: _))

/-- A text has a character that is not a blank or a bar. -/
def HasVisible (cs : List Char) : Prop :=
  ∃ c ∈ cs, isFiller c = false

instance (cs : List Char) : Decidable (HasVisible cs) :=
  inferInstanceAs (Decidable (∃ c ∈ cs, _))

section Columns

variable {widths : List Nat} {row : List (List Char)}

/-- A line from the beginning of a column on is the line of the columns from there on. -/
theorem drop_columnStart_fullLine
    (hfits : List.Forall₂ Fits widths row) {k : Nat} (hk : k < row.length) :
    (fullLine widths row).drop (columnStart widths k) =
      fullLine (widths.drop k) (row.drop k) := by
  induction hfits generalizing k with
  | nil => exact absurd hk (Nat.not_lt_zero k)
  | @cons w cell widths row hcell hrest ih =>
      cases k with
      | zero => rfl
      | succ k =>
          have hk : k < row.length := Nat.lt_of_succ_lt_succ hk
          have hstart : columnStart (w :: widths) (k + 1) =
              (pad w cell ++ separator).length + columnStart widths k := by
            rw [columnStart, List.length_append, length_pad hcell]
          cases hrest with
          | nil => exact absurd hk (Nat.not_lt_zero k)
          | @cons w' cell' widths row hcell' hrest =>
              rw [fullLine_cons_cons, hstart, List.drop_length_add_append, ih hk]
              rfl

theorem drop_columnStart_formatLine
    (hfits : List.Forall₂ Fits widths row) {k : Nat} (hk : k < row.length) :
    (formatLine widths row).drop (columnStart widths k) =
      formatLine (widths.drop k) (row.drop k) := by
  change (Text.dropTrailing isFiller (fullLine widths row)).drop _ =
    Text.dropTrailing isFiller (fullLine (widths.drop k) (row.drop k))
  rw [Text.drop_dropTrailing, drop_columnStart_fullLine hfits hk]

end Columns

/-! ## What is visible in a line -/

theorem hasVisible_append {cs ds : List Char} :
    HasVisible (cs ++ ds) ↔ HasVisible cs ∨ HasVisible ds := by
  simp only [HasVisible, List.mem_append, or_and_right, exists_or]

theorem not_hasVisible_of_forall {cs : List Char} (h : ∀ c ∈ cs, isFiller c = true) :
    ¬HasVisible cs := by
  rintro ⟨c, hc, hvisible⟩
  exact Bool.false_ne_true (hvisible.symm.trans (h c hc))

theorem forall_isFiller_of_not_hasVisible {cs : List Char} (h : ¬HasVisible cs) :
    ∀ c ∈ cs, isFiller c = true := by
  intro c hc
  by_contra hfiller
  exact h ⟨c, hc, Bool.eq_false_iff.mpr hfiller⟩

theorem not_hasVisible_replicate (n : Nat) : ¬HasVisible (List.replicate n ' ') := by
  apply not_hasVisible_of_forall
  intro c hc
  rw [List.eq_of_mem_replicate hc]
  rfl

/-- Something is visible behind a cell exactly if it is in one of the cells to the right. -/
theorem exists_fullLine_eq_append
    {widths : List Nat} {later : List (List Char)} (hfits : List.Forall₂ Fits widths later)
    (w : Nat) (cell : List Char) :
    ∃ following, fullLine (w :: widths) (cell :: later) = cell ++ following ∧
      (HasVisible following ↔ ∃ other ∈ later, HasVisible other) := by
  induction hfits generalizing w cell with
  | nil =>
      refine ⟨List.replicate (w - cell.length) ' ', List.intercalate_singleton, ?_⟩
      simp [not_hasVisible_replicate]
  | @cons w' cell' widths later _ _ ih =>
      obtain ⟨following, hline, hvisible⟩ := ih w' cell'
      refine ⟨List.replicate (w - cell.length) ' ' ++ (separator ++ (cell' ++ following)), ?_, ?_⟩
      · rw [fullLine_cons_cons, hline, pad, List.append_assoc, List.append_assoc]
      · have hseparator : ¬HasVisible separator :=
          not_hasVisible_of_forall fun c hc => isFiller_of_mem_separator hc
        simp [hasVisible_append, not_hasVisible_replicate, hseparator, hvisible]

/-! ## What is left of a cell -/

/-- Taking off blanks first makes no difference where blanks and bars are taken off. -/
theorem dropTrailing_shown (cell : List Char) :
    Text.dropTrailing isFiller (shown cell) = Text.dropTrailing isFiller cell := by
  obtain ⟨trail, hcell, htrail, -⟩ := Text.exists_eq_dropTrailing_append (· == ' ') cell
  have hfiller : ∀ c ∈ trail, isFiller c = true := by
    intro c hc
    rw [isFiller, htrail c hc, Bool.true_or]
  rw [← Text.dropTrailing_append_of_forall (shown cell) hfiller]
  exact congrArg _ hcell.symm

/-- A cell at the end of a line is left in full if there is no bar at its end. -/
theorem shown_prefix_dropTrailing_iff (cell : List Char) :
    shown cell <+: Text.dropTrailing isFiller cell ↔ EndsVisibly (shown cell) := by
  rw [← dropTrailing_shown]
  constructor
  · intro hprefix
    have heq : shown cell = Text.dropTrailing isFiller (shown cell) :=
      hprefix.eq_of_length_le (Text.dropTrailing_prefix isFiller (shown cell)).length_le
    obtain ⟨-, -, -, hlast⟩ := Text.exists_eq_dropTrailing_append isFiller (shown cell)
    rw [heq]
    exact hlast
  · intro hvisible
    have hkept : Text.dropTrailing isFiller (shown cell ++ []) = shown cell :=
      Text.dropTrailing_append hvisible nofun
    rw [List.append_nil] at hkept
    exact ⟨[], by rw [hkept, List.append_nil]⟩

/-- What is left of the first cell of a line. -/
theorem prefix_formatLine_iff
    {widths : List Nat} {later : List (List Char)} (hfits : List.Forall₂ Fits widths later)
    (w : Nat) (cell : List Char) :
    Text.dropTrailing isFiller cell <+: formatLine (w :: widths) (cell :: later) ∧
      (shown cell <+: formatLine (w :: widths) (cell :: later) ↔
        EndsVisibly (shown cell) ∨ ∃ other ∈ later, HasVisible other) := by
  obtain ⟨following, hline, hlater⟩ := exists_fullLine_eq_append hfits w cell
  have hformat : formatLine (w :: widths) (cell :: later) =
      Text.dropTrailing isFiller (cell ++ following) :=
    congrArg (Text.dropTrailing isFiller) hline
  rw [hformat, ← hlater]
  by_cases hvisible : HasVisible following
  · rw [Text.dropTrailing_append_of_exists cell hvisible]
    have hcell : cell <+: cell ++ Text.dropTrailing isFiller following :=
      List.prefix_append _ _
    exact ⟨(Text.dropTrailing_prefix isFiller cell).trans hcell,
      iff_of_true ((Text.dropTrailing_prefix _ cell).trans hcell) (Or.inr hvisible)⟩
  · rw [Text.dropTrailing_append_of_forall cell (forall_isFiller_of_not_hasVisible hvisible),
      shown_prefix_dropTrailing_iff, or_iff_left hvisible]
    exact ⟨List.prefix_refl _, Iff.rfl⟩

theorem standsIn_formatLine_iff
    {widths : List Nat} {row : List (List Char)} (hfits : List.Forall₂ Fits widths row)
    {k : Nat} {cell : List Char} (hcell : row[k]? = some cell) :
    StandsIn widths k (Text.dropTrailing isFiller cell) (formatLine widths row) ∧
      (StandsIn widths k (shown cell) (formatLine widths row) ↔
        EndsVisibly (shown cell) ∨ ∃ other ∈ row.drop (k + 1), HasVisible other) := by
  obtain ⟨hk, rfl⟩ := List.getElem?_eq_some_iff.mp hcell
  have hdrop := List.forall₂_drop k hfits
  rw [List.drop_eq_getElem_cons hk] at hdrop
  obtain ⟨w, rest, -, hlater, hwidths⟩ := List.forall₂_cons_right_iff.mp hdrop
  unfold StandsIn
  rw [drop_columnStart_formatLine hfits hk, List.drop_eq_getElem_cons hk, hwidths]
  exact prefix_formatLine_iff hlater w row[k]

theorem getElem?_bodyLines
    {rows : List Row} {i : Nat} {row : Row} (hrow : rows[i]? = some row) (widths : List Nat) :
    (bodyLines widths rows)[i]? = some (formatLine widths (cells row)) := by
  cases rows with
  | nil => exact absurd hrow (by simp)
  | cons first rest =>
      rw [bodyLines, List.getElem?_map, hrow, Option.map_some]
      exact nofun

/-- In the line of a row each cell stands at the place of its column, at least up to the blanks and
bars at its end.  Up to the blanks at its end it stands there exactly if these do not follow a
bar, or if something is visible in a cell to its right. -/
theorem cell_standsIn_line_iff
    (table : Table) (i k : Nat) (row : Row) (cell : List Char)
    (hrow : table.rows[i]? = some row) (hcell : (cells row)[k]? = some cell) :
    ∃ line, (tableLines table)[i + 3]? = some line ∧
      StandsIn (widths table.rows) k (Text.dropTrailing isFiller cell) line ∧
      (StandsIn (widths table.rows) k (shown cell) line ↔
        EndsVisibly (shown cell) ∨ ∃ other ∈ (cells row).drop (k + 1), HasVisible other) := by
  have hfits : List.Forall₂ Fits (widths table.rows) (cells row) :=
    fits_cells (List.mem_of_getElem? hrow)
  have hline : (tableLines table)[i + 3]? = some (formatLine (widths table.rows) (cells row)) :=
    getElem?_bodyLines hrow (widths table.rows)
  exact ⟨_, hline, standsIn_formatLine_iff hfits hcell⟩

/-- A row with a bar at the end of its name and of its value. -/
def barredRow : Row :=
  { line := 1, label := .assignment, name := "mask |", value := "flags | " }

/-- The name stands in full, since the value is visible behind it, and the value does not. -/
theorem cell_standsIn_line_iff_barredRow :
    let table : Table := ⟨"a.json", [barredRow]⟩
    table.rows[0]? = some barredRow ∧ (cells barredRow)[2]? = some "mask |".toList ∧
      (cells barredRow)[4]? = some "flags | ".toList ∧
      ∃ line, (tableLines table)[3]? = some line ∧
        StandsIn (widths table.rows) 2 (shown "mask |".toList) line ∧
        StandsIn (widths table.rows) 4 "flags".toList line ∧
        ¬StandsIn (widths table.rows) 4 (shown "flags | ".toList) line := by
  intro table
  obtain ⟨line, hline, -, hname⟩ :=
    cell_standsIn_line_iff table 0 2 barredRow "mask |".toList rfl rfl
  obtain ⟨line', hline', hkept, hvalue⟩ :=
    cell_standsIn_line_iff table 0 4 barredRow "flags | ".toList rfl rfl
  obtain rfl : line = line' := Option.some.inj (hline.symm.trans hline')
  refine ⟨rfl, rfl, rfl, line, hline, hname.mpr (Or.inr ?_), hkept, mt hvalue.mp (by decide)⟩
  exact ⟨"flags | ".toList, by decide, 'f', by decide, rfl⟩

/-- A table with one row, for `return flags | ...` with an operand that is not supported. -/
def returnedFlags : Table where
  source := "a.json"
  rows := flatten [.returnStatement ⟨1, 0⟩
    (some (.binary ⟨1, 7⟩ "|" (.identifier ⟨1, 7⟩ "flags") (.unsupported ⟨1, 15⟩)))]

/-- The bar at the end of the value is lost. -/
theorem not_standsIn_returnedFlags :
    ¬∀ (table : Table) (i k : Nat) (row : Row) (cell line : List Char),
      table.rows[i]? = some row → (cells row)[k]? = some cell →
        (tableLines table)[i + 3]? = some line →
          StandsIn (widths table.rows) k (shown cell) line := by
  intro hall
  have hbar : StandsIn (widths returnedFlags.rows) 4 "flags |".toList
      "1    | return statement |      |           | flags".toList :=
    hall returnedFlags 0 4 _ _ _ rfl rfl rfl
  exact absurd hbar (by decide)

end Report

end StatementTable
