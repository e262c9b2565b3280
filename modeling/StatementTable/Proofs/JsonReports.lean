import StatementTable.Proofs.PrintedValues
import StatementTable.Proofs.RowValues
import StatementTable.Report

/-!
# Reports in JSON are read back

A report in JSON lists the members of its objects in the order of the columns, and a reader sorts
them by key.  The objects of rows and tables decode in either order, so the text of a report
stands for exactly the tables that were reported, whatever characters and lines they hold.
-/

namespace StatementTable

open Json (Value Members)

theorem Json.Value.sortedItems_eq_map (items : List Value) :
    Value.sortedItems items = items.map Value.sorted := by
  induction items with
  | nil => simp [Value.sortedItems]
  | cons item items ih => simp [Value.sortedItems, ih]

namespace Row

theorem plain_toValue (row : Row) (depth : Nat) : Value.Plain (depth + 1) row.toValue := by
  apply Value.Plain.object
  intro member hmember
  simp only [members, List.mem_cons, List.not_mem_nil, or_false] at hmember
  rcases hmember with rfl | rfl | rfl | rfl | rfl
  · exact .natural depth row.line
  all_goals exact .string depth _

theorem sorted_toValue (row : Row) :
    row.toValue.sorted = .object (Members.ofList row.members) := by
  simp only [toValue, members, Value.sorted, Value.sortedMembers, Value.ofUInt64]

end Row

namespace Table

theorem plain_toValue (table : Table) (depth : Nat) : Value.Plain (depth + 3) table.toValue := by
  have hrows : Value.Plain (depth + 2) (.array (table.rows.map Row.toValue)) := by
    apply Value.Plain.array
    intro item hitem
    obtain ⟨row, -, rfl⟩ := List.mem_map.mp hitem
    exact row.plain_toValue depth
  apply Value.Plain.object
  intro member hmember
  simp only [List.mem_cons, List.not_mem_nil, or_false] at hmember
  rcases hmember with rfl | rfl
  · exact .string _ table.source
  · exact hrows

/-- Sorting the members of a table puts its rows before its source. -/
theorem sorted_toValue (table : Table) :
    table.toValue.sorted =
      .object [("rows", .array (table.rows.map fun row => .object (Members.ofList row.members))),
        ("source", .string table.source)] := by
  have hrows : (Value.array (table.rows.map Row.toValue)).sorted =
      .array (table.rows.map fun row => .object (Members.ofList row.members)) := by
    rw [Value.sorted, Value.sortedItems_eq_map, List.map_map]
    apply congrArg Value.array
    apply List.map_congr_left
    intro row _
    exact row.sorted_toValue
  rw [toValue, Value.sorted, Value.sortedMembers, Value.sortedMembers, Value.sortedMembers, hrows]
  simp [Value.sorted, Members.ofList, Members.insert, List.cons_lt_cons_iff]

end Table

theorem Decode.table_sorted_toValue (table : Table) :
    Decode.table table.toValue.sorted = .ok table := by
  have hrows := sequence_map row_ofList_members table.rows
  rw [table.sorted_toValue]
  simp [Decode.table, member, Members.get?, List.lookup_cons, hrows, text, require]

/-- The text of a report in JSON is JSON, and its value decodes to the tables reported. -/
theorem Report.json_reads_back (tables : List Table) :
    ∃ v, Json.parse (Report.json tables) = some v ∧ Decode.tables v = .ok tables := by
  have hplain : Value.Plain Json.nestingLimit (.array (tables.map Table.toValue)) := by
    apply Value.Plain.array
    intro item hitem
    obtain ⟨table, -, rfl⟩ := List.mem_map.mp hitem
    exact table.plain_toValue _
  refine ⟨_, Value.parse_write hplain (.lines 2), ?_⟩
  rw [Value.sorted, Value.sortedItems_eq_map, List.map_map]
  exact Decode.sequence_map Decode.table_sorted_toValue tables

end StatementTable
