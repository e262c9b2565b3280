import StatementTable.Json.Printer
import StatementTable.Report.Text
import StatementTable.Row.Encode

/-!
# Reports

A report shows tables in one of two formats, as a text table or as JSON.
-/

namespace StatementTable

inductive Format where
  | table
  | json
deriving DecidableEq, Repr

namespace Report

/-- Tables as JSON, with an item to a line. -/
def json (tables : List Table) : String :=
  (Json.Value.array (tables.map Table.toValue)).pretty

def render : Format → List Table → String
  | .table => text
  | .json => json

end Report

end StatementTable
