import Mathlib.Data.List.Forall2
import StatementTable.Report.Text

/-!
# The layout of a text table

Every cell of a table fits its column.  So the cells of a row stand at places that depend on the
widths of the columns alone.  What is left out at the end of a line is the end of a line of empty
cells, and it can be put back once the widths are known, provided that no cell ends in a blank or
a bar.
-/

namespace StatementTable

namespace Text

variable {p : Char → Bool}

theorem dropTrailing_append
    {kept trail : List Char} (hkept : ∀ c ∈ kept.getLast?, p c = false)
    (htrail : ∀ c ∈ trail, p c = true) :
    dropTrailing p (kept ++ trail) = kept := by
  have hstop : kept.reverse.dropWhile p = kept.reverse := by
    rw [← List.head?_reverse] at hkept
    cases hreverse : kept.reverse with
    | nil => rfl
    | cons c cs =>
        rw [hreverse] at hkept
        exact List.dropWhile_cons_of_neg (by simp [hkept c rfl])
  rw [dropTrailing, List.reverse_append,
    List.dropWhile_append_of_pos (fun c hc => htrail c (List.mem_reverse.mp hc)), hstop,
    List.reverse_reverse]

theorem dropTrailing_cons {c : Char} (hc : p c = false) (cs : List Char) :
    dropTrailing p (c :: cs) = c :: dropTrailing p cs := by
  have hstop : [c].dropWhile p = [c] := List.dropWhile_cons_of_neg (by simp [hc])
  rw [dropTrailing, dropTrailing, List.reverse_cons, List.dropWhile_append]
  by_cases hall : (cs.reverse.dropWhile p).isEmpty
  · rw [if_pos hall, List.isEmpty_iff.mp hall, hstop]
    rfl
  · rw [if_neg hall]
    simp

theorem mem_of_mem_dropTrailing {c : Char} {cs : List Char} (hc : c ∈ dropTrailing p cs) :
    c ∈ cs := by
  apply List.mem_reverse.mp
  apply (List.dropWhile_sublist p).mem
  exact List.mem_reverse.mp hc

theorem mem_of_mem_intercalate
    {α : Type} {c : α} {between : List α} {parts : List (List α)}
    (hc : c ∈ between.intercalate parts) : c ∈ between ∨ ∃ part ∈ parts, c ∈ part := by
  induction parts with
  | nil => exact absurd hc List.not_mem_nil
  | cons part parts ih =>
      cases parts with
      | nil => exact Or.inr ⟨part, .head _, by simpa using hc⟩
      | cons next parts =>
          rw [List.intercalate_cons_cons, List.mem_append, List.mem_append] at hc
          rcases hc with (hc | hc) | hc
          · exact Or.inr ⟨part, .head _, hc⟩
          · exact Or.inl hc
          · exact (ih hc).imp_right fun h => h.imp fun _ h => ⟨.tail _ h.1, h.2⟩

end Text

namespace Report

/-! ## Widths -/

/-- A cell is not wider than its column. -/
def Fits (width : Nat) (cell : List Char) : Prop :=
  cell.length ≤ width

/-- The widths of columns after one more row. -/
def widen (widths : List Nat) (row : List (List Char)) : List Nat :=
  widths.zipWith (fun w cell => max w cell.length) row

theorem fits_widen_self
    {widths : List Nat} {row : List (List Char)} (hlength : widths.length = row.length) :
    List.Forall₂ Fits (widen widths row) row := by
  induction row generalizing widths with
  | nil =>
      obtain rfl := List.length_eq_zero_iff.mp hlength
      exact .nil
  | cons cell row ih =>
      obtain ⟨w, widths, rfl⟩ := List.exists_cons_of_length_eq_add_one hlength
      exact .cons (Nat.le_max_right w cell.length) (ih (Nat.succ.inj hlength))

theorem fits_widen
    {widths : List Nat} {row other : List (List Char)} (h : List.Forall₂ Fits widths row)
    (hlength : widths.length = other.length) :
    List.Forall₂ Fits (widen widths other) row := by
  induction h generalizing other with
  | nil => exact .nil
  | @cons w cell widths row hcell _ ih =>
      obtain ⟨first, other, rfl⟩ := List.exists_cons_of_length_eq_add_one hlength.symm
      exact .cons (Nat.le_trans hcell (Nat.le_max_left w first.length))
        (ih (Nat.succ.inj hlength))

theorem length_foldl_widen
    {widths : List Nat} {rows : List (List (List Char))}
    (hlength : ∀ row ∈ rows, widths.length = row.length) :
    (rows.foldl widen widths).length = widths.length := by
  induction rows generalizing widths with
  | nil => rfl
  | cons row rows ih =>
      have hfirst : (widen widths row).length = widths.length := by
        simp [widen, ← hlength row (.head _)]
      rw [List.foldl_cons, ih, hfirst]
      intro other hother
      rw [hfirst]
      exact hlength other (.tail _ hother)

/-- A row fits the widths of a list of rows if it is one of them, or if it fitted before. -/
theorem fits_foldl_widen
    {widths : List Nat} {rows : List (List (List Char))} {row : List (List Char)}
    (hlength : ∀ other ∈ rows, widths.length = other.length)
    (h : row ∈ rows ∨ List.Forall₂ Fits widths row) :
    List.Forall₂ Fits (rows.foldl widen widths) row := by
  induction rows generalizing widths with
  | nil =>
      rcases h with hmem | hfits
      · exact absurd hmem List.not_mem_nil
      · exact hfits
  | cons first rows ih =>
      have hfirst := hlength first (.head _)
      apply ih
      · intro other hother
        rw [← hlength other (.tail _ hother)]
        simp [widen, ← hfirst]
      · rcases h with hmem | hfits
        · rcases List.mem_cons.mp hmem with rfl | hmem
          · exact Or.inr (fits_widen_self hfirst)
          · exact Or.inl hmem
        · exact Or.inr (fits_widen hfits hfirst)

theorem length_headings_eq {rows : List Row} :
    ∀ row ∈ rows.map cells, (headings.map List.length).length = row.length := by
  intro row hrow
  obtain ⟨row, -, rfl⟩ := List.mem_map.mp hrow
  rfl

theorem length_widths (rows : List Row) : (widths rows).length = 5 :=
  length_foldl_widen length_headings_eq

theorem fits_cells {rows : List Row} {row : Row} (hrow : row ∈ rows) :
    List.Forall₂ Fits (widths rows) (cells row) :=
  fits_foldl_widen length_headings_eq (Or.inl (List.mem_map_of_mem hrow))

/-! ## Lines -/

/-- What stands between two cells. -/
def separator : List Char :=
  [' ', '|', ' ']

/-- The cells of a row side by side, with nothing left out at the end. -/
def fullLine (widths : List Nat) (row : List (List Char)) : List Char :=
  separator.intercalate (widths.zipWith pad row)

/-- A line of empty cells. -/
def blankLine (widths : List Nat) : List Char :=
  separator.intercalate (widths.map fun w => List.replicate w ' ')

/-- A line with the end put back that was left out. -/
def restore (widths : List Nat) (line : List Char) : List Char :=
  line ++ (blankLine widths).drop line.length

/-- A text does not end in a blank or a bar. -/
def EndsVisibly (cs : List Char) : Prop :=
  ∀ c ∈ cs.getLast?, isFiller c = false

instance (cs : List Char) : Decidable (EndsVisibly cs) :=
  decidable_of_iff (cs.getLast?.all (fun c => !isFiller c) = true)
    (by simp [EndsVisibly, Option.all_eq_true])

theorem length_pad {width : Nat} {cell : List Char} (h : Fits width cell) :
    (pad width cell).length = width := by
  simp only [pad, List.length_append, List.length_replicate]
  exact Nat.add_sub_cancel' h

theorem dropTrailing_pad
    {cell : List Char} (h : EndsVisibly cell) (width : Nat) :
    Text.dropTrailing (· == ' ') (pad width cell) = cell := by
  apply Text.dropTrailing_append
  · intro c hc
    have hvisible := h c hc
    rw [isFiller, Bool.or_eq_false_iff] at hvisible
    exact hvisible.1
  · intro c hc
    simp [List.eq_of_mem_replicate hc]

theorem isFiller_of_mem_separator {c : Char} (hc : c ∈ separator) : isFiller c = true := by
  have hall : separator.all isFiller = true := rfl
  exact List.all_eq_true.mp hall c hc

theorem isFiller_of_mem_blankLine
    {widths : List Nat} {c : Char} (hc : c ∈ blankLine widths) : isFiller c = true := by
  rcases Text.mem_of_mem_intercalate hc with hseparator | ⟨part, hpart, hc⟩
  · exact isFiller_of_mem_separator hseparator
  · obtain ⟨w, -, rfl⟩ := List.mem_map.mp hpart
    rw [List.eq_of_mem_replicate hc]
    rfl

theorem mem_fullLine
    {widths : List Nat} {row : List (List Char)} {c : Char} (hc : c ∈ fullLine widths row) :
    isFiller c = true ∨ ∃ cell ∈ row, c ∈ cell := by
  rcases Text.mem_of_mem_intercalate hc with hseparator | ⟨part, hpart, hc⟩
  · exact Or.inl (isFiller_of_mem_separator hseparator)
  · rw [← List.map_uncurry_zip_eq_zipWith] at hpart
    obtain ⟨⟨w, cell⟩, hmem, rfl⟩ := List.mem_map.mp hpart
    rcases List.mem_append.mp hc with hc | hc
    · exact Or.inr ⟨cell, (List.of_mem_zip hmem).2, hc⟩
    · rw [List.eq_of_mem_replicate hc]
      exact Or.inl rfl

theorem fullLine_cons_cons
    (w w' : Nat) (widths : List Nat) (cell cell' : List Char) (row : List (List Char)) :
    fullLine (w :: w' :: widths) (cell :: cell' :: row) =
      pad w cell ++ separator ++ fullLine (w' :: widths) (cell' :: row) :=
  List.intercalate_cons_cons

theorem blankLine_cons_cons (w w' : Nat) (widths : List Nat) :
    blankLine (w :: w' :: widths) =
      List.replicate w ' ' ++ separator ++ blankLine (w' :: widths) :=
  List.intercalate_cons_cons

/-- Up to some place a line holds all that is visible, and from there on it is a line of empty
cells. -/
theorem exists_fullLine_eq_restore
    {widths : List Nat} {row : List (List Char)} (hfits : List.Forall₂ Fits widths row)
    (hvisible : ∀ cell ∈ row, EndsVisibly cell) :
    ∃ kept, EndsVisibly kept ∧ fullLine widths row = restore widths kept := by
  induction hfits with
  | nil => exact ⟨[], nofun, rfl⟩
  | @cons w cell widths row hcell hrest ih =>
      have hpad : pad w cell = cell ++ (List.replicate w ' ').drop cell.length := by
        rw [pad, List.drop_replicate]
      cases hrest with
      | nil =>
          refine ⟨cell, hvisible cell (.head _), ?_⟩
          simpa [fullLine, restore, blankLine] using hpad
      | @cons w' cell' widths row hcell' hrest =>
          obtain ⟨kept, hkept, heq⟩ := ih fun cell hmem => hvisible cell (.tail _ hmem)
          by_cases hempty : kept = []
          · refine ⟨cell, hvisible cell (.head _), ?_⟩
            have hle : cell.length ≤ (List.replicate w ' ').length :=
              Nat.le_trans hcell (Nat.le_of_eq List.length_replicate.symm)
            rw [fullLine_cons_cons, heq, hempty, hpad, restore, restore, blankLine_cons_cons,
              List.append_assoc (List.replicate w ' '), List.drop_append_of_le_length hle]
            simp
          · refine ⟨pad w cell ++ separator ++ kept, ?_, ?_⟩
            · rw [EndsVisibly, List.getLast?_append_of_ne_nil _ hempty]
              exact hkept
            · have hlength : (pad w cell ++ separator).length =
                  (List.replicate w ' ' ++ separator).length := by
                rw [List.length_append, List.length_append, length_pad hcell,
                  List.length_replicate]
              rw [fullLine_cons_cons, heq, restore, restore, blankLine_cons_cons,
                List.length_append, hlength, List.drop_length_add_append,
                List.append_assoc (pad w cell ++ separator)]

/-- What was left out at the end of a line is put back. -/
theorem restore_formatLine
    {widths : List Nat} {row : List (List Char)} (hfits : List.Forall₂ Fits widths row)
    (hvisible : ∀ cell ∈ row, EndsVisibly cell) :
    restore widths (formatLine widths row) = fullLine widths row := by
  obtain ⟨kept, hkept, heq⟩ := exists_fullLine_eq_restore hfits hvisible
  have hformat : formatLine widths row = kept := by
    change Text.dropTrailing isFiller (fullLine widths row) = kept
    rw [heq]
    apply Text.dropTrailing_append hkept
    intro c hc
    exact isFiller_of_mem_blankLine (List.mem_of_mem_drop hc)
  rw [hformat, heq]

/-! ## Columns -/

/-- What stands in the columns of the given widths. -/
def columns : List Nat → List Char → List (List Char)
  | [], _ => []
  | w :: widths, cs => cs.take w :: columns widths (cs.drop (w + separator.length))

theorem columns_fullLine
    {widths : List Nat} {row : List (List Char)} (hfits : List.Forall₂ Fits widths row) :
    columns widths (fullLine widths row) = widths.zipWith pad row := by
  induction hfits with
  | nil => rfl
  | @cons w cell widths row hcell hrest ih =>
      have hlength := length_pad hcell
      cases hrest with
      | nil =>
          have hfull : fullLine [w] [cell] = pad w cell := List.intercalate_singleton
          rw [columns, hfull, List.take_of_length_le (Nat.le_of_eq hlength)]
          rfl
      | @cons w' cell' widths row hcell' hrest =>
          have hdrop : w + separator.length = (pad w cell ++ separator).length := by
            rw [List.length_append, hlength]
          rw [columns, fullLine_cons_cons, hdrop, List.drop_left, ih, List.append_assoc,
            List.take_left' hlength]
          rfl

/-- The cells that a line was made of, given the widths of the columns. -/
def readCells (widths : List Nat) (line : List Char) : List (List Char) :=
  (columns widths (restore widths line)).map (Text.dropTrailing (· == ' '))

theorem readCells_formatLine
    {widths : List Nat} {row : List (List Char)} (hfits : List.Forall₂ Fits widths row)
    (hvisible : ∀ cell ∈ row, EndsVisibly cell) :
    readCells widths (formatLine widths row) = row := by
  rw [readCells, restore_formatLine hfits hvisible, columns_fullLine hfits]
  induction hfits with
  | nil => rfl
  | @cons w cell widths row _ _ ih =>
      rw [List.zipWith_cons_cons, List.map_cons, dropTrailing_pad (hvisible cell (.head _)),
        ih fun cell hmem => hvisible cell (.tail _ hmem)]

end Report

end StatementTable
