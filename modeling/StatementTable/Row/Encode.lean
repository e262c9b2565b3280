import StatementTable.Json.Value
import StatementTable.Row

/-!
# Rows and tables as JSON

The members of a row and of a table are listed in the order in which a report shows them.
-/

namespace StatementTable

open Json (Value Members)

namespace Row

def members (row : Row) : Members :=
  [("line", .ofUInt64 row.line),
   ("type", .string row.label.text),
   ("name", .string row.name),
   ("condition", .string row.condition),
   ("value", .string row.value)]

def toValue (row : Row) : Value :=
  .object row.members

end Row

namespace Table

def toValue (table : Table) : Value :=
  .object [("source", .string table.source), ("rows", .array (table.rows.map Row.toValue))]

end Table

end StatementTable
