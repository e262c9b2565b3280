import StatementTable.Row
import StatementTable.Text.Trailing

/-!
# Tables as text

A table is printed under the name of its source, with a heading, a rule and one line for each
row.  Columns are as wide as their widest cell and are set apart by bars.  Blanks and bars at the
end of a line are left out.  A cell stays on its line: a line break inside it is written `\n`,
and a backslash is doubled so that the two can be told apart.
-/

namespace StatementTable.Report

def headings : List (List Char) :=
  ["Line".toList, "Type".toList, "Name".toList, "Condition".toList, "Value".toList]

/-- A character as it stands in a cell. -/
def escapeCellChar (c : Char) : List Char :=
  if c = '\\' then ['\\', '\\'] else if c = '\n' then ['\\', 'n'] else [c]

def escapeCell (s : String) : List Char :=
  s.toList.flatMap escapeCellChar

def cells (row : Row) : List (List Char) :=
  [Nat.toDigits 10 row.line.toNat, row.label.text.toList, escapeCell row.name,
    escapeCell row.condition, escapeCell row.value]

def widths (rows : List Row) : List Nat :=
  (rows.map cells).foldl (fun widths row => widths.zipWith (fun w cell => max w cell.length) row)
    (headings.map List.length)

/-- A cell filled up with blanks to the width of its column. -/
def pad (width : Nat) (cell : List Char) : List Char :=
  cell ++ List.replicate (width - cell.length) ' '

/-- What is left out at the end of a line. -/
def isFiller (c : Char) : Bool :=
  c == ' ' || c == '|'

/-- The cells of a row side by side. -/
def formatLine (widths : List Nat) (row : List (List Char)) : List Char :=
  Text.dropTrailing isFiller ([' ', '|', ' '].intercalate (widths.zipWith pad row))

/-- The rule under the headings. -/
def rule (widths : List Nat) : List Char :=
  ['-', '+', '-'].intercalate (widths.map fun w => List.replicate w '-')

/-- The lines below the rule. -/
def bodyLines (widths : List Nat) : List Row → List (List Char)
  | [] => ["(no rows)".toList]
  | rows => rows.map fun row => formatLine widths (cells row)

def tableLines (table : Table) : List (List Char) :=
  let widths := widths table.rows
  ('=' :: '=' :: ' ' :: table.source.toList) :: formatLine widths headings :: rule widths ::
    bodyLines widths table.rows

def tableText (table : Table) : List Char :=
  ['\n'].intercalate (tableLines table)

/-- Tables as text, an empty line between them. -/
def text (tables : List Table) : String :=
  String.ofList (['\n', '\n'].intercalate (tables.map tableText) ++ ['\n'])

end StatementTable.Report
