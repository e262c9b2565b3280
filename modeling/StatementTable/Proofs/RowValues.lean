import StatementTable.Proofs.Encoding
import StatementTable.Row.Decode
import StatementTable.Service.Command

/-!
# Rows as values

The object of a row, with its members sorted, decodes to the row.  So the data of a flattening
decode to its rows and to the lines that were passed over.
-/

namespace StatementTable

open Json (Value Members)

theorem Row.ofList_members (row : Row) :
    Members.ofList row.members =
      [("condition", .string row.condition), ("line", .ofUInt64 row.line),
       ("name", .string row.name), ("type", .string row.label.text),
       ("value", .string row.value)] := by
  simp [Members.ofList, Row.members, Members.insert, List.cons_lt_cons_iff]

theorem Label.ofText?_text (label : Label) : Label.ofText? label.text = some label := by
  cases label <;> rfl

namespace Decode

theorem row_ofList_members (row : Row) :
    Decode.row (.object (Members.ofList row.members)) = .ok row := by
  simp [Row.ofList_members, Decode.row, member, Members.get?, List.lookup_cons, text, natural,
    Value.ofUInt64, label, labelText, Label.ofText?_text, require]

theorem natural_ofUInt64 (n : UInt64) : natural (.ofUInt64 n) = .ok n :=
  rfl

theorem sequence_map
    {α : Type} {read : Value → Decoded α} {encode : α → Value}
    (h : ∀ a, read (encode a) = .ok a) (items : List α) :
    sequence read (.array (items.map encode)) = .ok items := by
  rw [sequence]
  induction items with
  | nil => rfl
  | cons item items ih => simp [h, ih]

end Decode

/-- The data of an answer are an object of rows and lines and of nothing else. -/
def Service.HoldsFlattening (data : Value) (rows : List Row) (lines : List UInt64) : Prop :=
  ∃ rowValues lineValues,
    data = .object [("rows", .array rowValues), ("unsupported", .array lineValues)] ∧
    Decode.sequence Decode.row (.array rowValues) = .ok rows ∧
    Decode.sequence Decode.natural (.array lineValues) = .ok lines

theorem Flattening.holdsFlattening_toValue (flattening : Flattening) :
    Service.HoldsFlattening flattening.toValue flattening.rows flattening.unsupported :=
  ⟨_, _, rfl, Decode.sequence_map Decode.row_ofList_members flattening.rows,
    Decode.sequence_map Decode.natural_ofUInt64 flattening.unsupported⟩

end StatementTable
